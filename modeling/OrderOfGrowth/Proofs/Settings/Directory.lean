import OrderOfGrowth.Proofs.Settings.Resolution

/-!
Which files the settings of a directory are from. A name is sought place by place, and of all files
only the nearest one with the name counts (`sought_nearest`): trees that agree as far as that one give
the same settings (`sought_agrees`).
-/

set_option autoImplicit false

namespace OrderOfGrowth.Settings

open Files (Tree Place)

-- What a file holds, if it is there and can be read.
def contents? (tree : Tree) (path : Text) (place : Place) : Option (List UInt8) :=
  (tree.read place path).toOption

-- The places where a name is looked for, nearest first. Where an absolute one leads does not depend on
-- a place.
def lookedAt (working : Place) (path : Text) : List Place :=
  if Files.Path.isAbsolute path then [[]] else ancestors working

def nearest? (tree : Tree) (path : Text) : List Place → Option (Place × List UInt8)
  | [] => none
  | place :: places =>
    match contents? tree path place with
    | some bytes => some (place, bytes)
    | none => nearest? tree path places

-- Two trees agree on a name at these places, as far as a file of that name.
def AgreeOn (one other : Tree) (path : Text) : List Place → Prop
  | [] => True
  | place :: places =>
    contents? one path place = contents? other path place ∧
      (contents? one path place = none → AgreeOn one other path places)

section Nearest

variable (tree : Tree) (path : Text)

theorem is_file_contents (place : Place) : tree.isFile place path = (contents? tree path place).isSome := by
  rw [Tree.isFile, contents?]
  cases tree.read place path <;> rfl

theorem layer_of_contents (place : Place) (shown : Text) (bytes : List UInt8)
    (held : contents? tree path place = some bytes) :
    layerOfFile tree place path shown = layerOfBytes shown bytes := by
  rw [contents?] at held
  rw [layerOfFile]
  cases read : tree.read place path with
  | error refusal =>
      rw [read] at held
      cases held
  | ok found =>
      rw [read] at held
      cases held
      rfl

theorem nearest_found (places : List Place) :
    places.find? (tree.isFile · path) = (nearest? tree path places).map Prod.fst := by
  induction places with
  | nil => rfl
  | cons place places ih =>
      rw [List.find?_cons, is_file_contents, nearest?, ih]
      cases contents? tree path place <;> rfl

theorem nearest_holds (places : List Place) (place : Place) (bytes : List UInt8)
    (found : nearest? tree path places = some (place, bytes)) : contents? tree path place = some bytes := by
  induction places with
  | nil => cases found
  | cons first places ih =>
      rw [nearest?] at found
      cases here : contents? tree path first with
      | none =>
          rw [here] at found
          exact ih found
      | some held =>
          rw [here] at found
          cases found
          exact here

theorem find_upward_nearest (working : Place) :
    findUpward tree working path = (nearest? tree path (lookedAt working path)).map Prod.fst := by
  rw [← nearest_found, findUpward, lookedAt]
  split
  · rw [List.find?_singleton]
  · rfl

-- A file is sought by what its nearest namesake holds.
theorem sought_nearest (working : Place) :
    soughtLayer tree working path = (nearest? tree path (lookedAt working path)).map fun (place, bytes) =>
      (shownPath working place path, layerOfBytes (shownPath working place path) bytes) := by
  rw [soughtLayer, find_upward_nearest]
  cases found : nearest? tree path (lookedAt working path) with
  | none => rfl
  | some hit =>
      obtain ⟨place, bytes⟩ := hit
      have held := nearest_holds tree path _ place bytes found
      have layer := layer_of_contents tree path place (shownPath working place path) bytes held
      simp only [Option.map_some, layer]

end Nearest

theorem nearest_agrees (one other : Tree) (path : Text) (places : List Place)
    (agree : AgreeOn one other path places) : nearest? one path places = nearest? other path places := by
  induction places with
  | nil => rfl
  | cons place places ih =>
      obtain ⟨here, later⟩ := agree
      rw [nearest?, nearest?, ← here]
      cases held : contents? one path place with
      | none => exact ih (later held)
      | some bytes => rfl

theorem sought_agrees (one other : Tree) (working : Place) (path : Text)
    (agree : AgreeOn one other path (lookedAt working path)) :
    soughtLayer one working path = soughtLayer other working path := by
  rw [sought_nearest, sought_nearest, nearest_agrees one other path _ agree]

theorem nearest_none (tree : Tree) (path : Text) (places : List Place)
    (absent : ∀ place ∈ places, contents? tree path place = none) : nearest? tree path places = none := by
  induction places with
  | nil => rfl
  | cons place places ih =>
      rw [nearest?, absent place List.mem_cons_self]
      exact ih fun place member => absent place (List.mem_cons_of_mem _ member)

theorem ancestors_start (working : Place) : ∃ above, ancestors working = working :: above := by
  cases working with
  | nil => exact ⟨[], rfl⟩
  | cons name rest =>
      obtain ⟨above, same⟩ := ancestors_start rest
      exact ⟨above.map (name :: ·) ++ [[]], by rw [ancestors, same, List.map_cons, List.cons_append]⟩

theorem contents_absolute (tree : Tree) (path : Text) (absolute : Files.Path.isAbsolute path = true)
    (place other : Place) : contents? tree path place = contents? tree path other := by
  simp only [contents?, Tree.read, Tree.resolve, Tree.start, absolute, if_true]

-- A file that is under its own path, or that can be nowhere else, is all that trees have to agree on.
theorem agree_on_own (one other : Tree) (working : Place) (path : Text)
    (same : contents? one path working = contents? other path working)
    (own : Files.Path.isAbsolute path = true ∨ (contents? one path working).isSome = true) :
    AgreeOn one other path (lookedAt working path) := by
  rw [lookedAt]
  split
  · rename_i absolute
    rw [contents_absolute one path absolute working [], contents_absolute other path absolute working []] at same
    exact ⟨same, fun _ => trivial⟩
  · rename_i relative
    obtain ⟨above, starts⟩ := ancestors_start working
    rw [starts]
    refine ⟨same, fun absent => ?_⟩
    rcases own with absolute | there
    · exact absurd absolute relative
    · rw [absent] at there
      cases there

theorem no_variables (environment : List (Text × Text))
    (unmarked : ∀ entry ∈ environment, Text.after? variableMark (lowered entry.1) = none) :
    fromEnvironment environment = [] := by
  induction environment with
  | nil => rfl
  | cons entry environment ih =>
      rw [values_of_unmarked entry environment (unmarked_path entry.1 (unmarked entry List.mem_cons_self))]
      exact ih fun entry member => unmarked entry (List.mem_cons_of_mem _ member)

theorem default_settings (environment : List (Text × Text))
    (unmarked : ∀ entry ∈ environment, Text.after? variableMark (lowered entry.1) = none) :
    combine [] environment = .ok {} := by
  apply combine_accepts []
  rw [environmentLayer, no_variables environment unmarked]
  rfl

section

variable (working : Place) (environment : List (Text × Text)) (directory : Text)

theorem agreeing_trees_load (one other : Tree)
    (agree : ∀ path ∈ fileNames directory, AgreeOn one other path (lookedAt working path)) :
    fromDirectory one working environment directory = fromDirectory other working environment directory := by
  have same : (fileNames directory).filterMap (soughtLayer one working) =
      (fileNames directory).filterMap (soughtLayer other working) := by
    apply List.filterMap_congr
    exact fun path member => sought_agrees one other working path (agree path member)
  rw [fromDirectory, fromDirectory, same]

/-- The settings of a directory depend on its two files alone, each as it is at the nearest place where
the name is found; if that is the directory itself, its own files decide. With neither file at any
place, and no variables, the settings are the defaults. -/
theorem nearest_files_settle :
    (∀ one other : Tree,
      (∀ path ∈ fileNames directory, AgreeOn one other path (lookedAt working path)) →
      fromDirectory one working environment directory = fromDirectory other working environment directory) ∧
    (∀ one other : Tree,
      (∀ path ∈ fileNames directory, contents? one path working = contents? other path working ∧
        (Files.Path.isAbsolute path = true ∨ (contents? one path working).isSome = true)) →
      fromDirectory one working environment directory = fromDirectory other working environment directory) ∧
    ∀ tree : Tree,
      (∀ path ∈ fileNames directory, ∀ place ∈ lookedAt working path, contents? tree path place = none) →
      (∀ entry ∈ environment, Text.after? variableMark (lowered entry.1) = none) →
      fromDirectory tree working environment directory = .ok {} := by
  refine ⟨agreeing_trees_load working environment directory, ?_, ?_⟩
  · intro one other own
    apply agreeing_trees_load
    intro path member
    obtain ⟨same, there⟩ := own path member
    exact agree_on_own one other working path same there
  · intro tree absent unmarked
    have nothing : (fileNames directory).filterMap (soughtLayer tree working) = [] := by
      rw [List.filterMap_eq_nil_iff]
      intro path member
      rw [sought_nearest, nearest_none tree path _ (absent path member), Option.map_none]
    rw [fromDirectory, nothing]
    exact default_settings environment unmarked

end

def inner : Place :=
  ["inner".toList]

-- A directory without files of its own, alone, under one that has a file, and with files in other
-- places besides.
def bareTree : Tree :=
  .directory [("inner".toList, .directory [])]

def outerDocument : Text :=
  "[report]\ntitle = \"Outer\"\n".toList

def outerFile : Text × Tree :=
  ("bigo.toml".toList, .file (Text.encode outerDocument))

def outerTree : Tree :=
  .directory [outerFile, ("inner".toList, .directory [])]

def widerTree : Tree :=
  .directory [("inner".toList, .directory [("below".toList, .directory [outerFile])]), outerFile,
    ("beside".toList, .directory [outerFile])]

def ownTree (above : List (Text × Tree)) : Tree :=
  .directory (above ++ [("inner".toList, .directory [outerFile, (".bigo".toList, .directory [outerFile])])])

theorem absent_everywhere : ∀ path ∈ fileNames ['.'], ∀ place ∈ lookedAt inner path,
    contents? bareTree path place = none := by
  refine List.forall_mem_cons.mpr ⟨?_, List.forall_mem_singleton.mpr ?_⟩
  all_goals exact List.forall_mem_cons.mpr ⟨rfl, List.forall_mem_singleton.mpr rfl⟩

theorem wider_agrees : ∀ path ∈ fileNames ['.'], AgreeOn outerTree widerTree path (lookedAt inner path) := by
  refine List.forall_mem_cons.mpr ⟨?_, List.forall_mem_singleton.mpr ?_⟩
  all_goals exact ⟨rfl, fun _ => ⟨rfl, fun _ => trivial⟩⟩

theorem own_agrees : ∀ path ∈ fileNames ['.'],
    contents? (ownTree []) path inner = contents? (ownTree [outerFile]) path inner ∧
      (Files.Path.isAbsolute path = true ∨ (contents? (ownTree []) path inner).isSome = true) :=
  List.forall_mem_cons.mpr ⟨⟨rfl, .inr rfl⟩, List.forall_mem_singleton.mpr ⟨rfl, .inr rfl⟩⟩

theorem other_files_unread :
    (∀ path ∈ fileNames ['.'], AgreeOn outerTree widerTree path (lookedAt inner path)) ∧
      fromDirectory outerTree inner [] ['.'] = fromDirectory widerTree inner [] ['.'] ∧
      fromDirectory (ownTree []) inner [] ['.'] = fromDirectory (ownTree [outerFile]) inner [] ['.'] ∧
      fromDirectory bareTree inner [("PATH".toList, "/bin".toList)] ['.'] = .ok {} := by
  have settle := nearest_files_settle inner [] ['.']
  have defaults := (nearest_files_settle inner [("PATH".toList, "/bin".toList)] ['.']).2.2
  have unmarked : ∀ entry ∈ [("PATH".toList, "/bin".toList)],
      Text.after? variableMark (lowered entry.1) = none := List.forall_mem_singleton.mpr (by decide)
  exact ⟨wider_agrees, settle.1 outerTree widerTree wider_agrees,
    settle.2.1 (ownTree []) (ownTree [outerFile]) own_agrees, defaults bareTree absent_everywhere unmarked⟩

theorem outer_parsed : Toml.parse? outerDocument =
    some [("report".toList, .table [("title".toList, .text "Outer".toList)])] := by
  cbv

theorem outer_settings :
    fromDirectory outerTree inner [] ['.'] = .ok { report := { title := "Outer".toList } } := by
  have holds : Holds outerTree [] "./bigo.toml".toList
      [("report".toList, .table [("title".toList, .text "Outer".toList)])] :=
    ⟨_, outerDocument, rfl, Text.decode_strict_encode _, outer_parsed⟩
  have layer := layer_of_held outerTree [] _ "../bigo.toml".toList _ holds
  have sought : (fileNames ['.']).filterMap (soughtLayer outerTree inner) =
      [("../bigo.toml".toList, layerOfFile outerTree [] "./bigo.toml".toList "../bigo.toml".toList)] := rfl
  rw [fromDirectory, sought, layer]
  exact combine_accepts [(_, _)] [] _ rfl

theorem own_files_absent : ∀ path ∈ fileNames ['.'],
    contents? outerTree path inner = none ∧ contents? bareTree path inner = none :=
  List.forall_mem_cons.mpr ⟨⟨rfl, rfl⟩, List.forall_mem_singleton.mpr ⟨rfl, rfl⟩⟩

/-- A directory's own files do not settle its settings: a file in a directory above may. -/
theorem own_files_not_enough :
    ¬ ∀ (working : Place) (environment : List (Text × Text)) (directory : Text) (one other : Tree),
      (∀ path ∈ fileNames directory, contents? one path working = contents? other path working) →
      fromDirectory one working environment directory = fromDirectory other working environment directory := by
  intro enough
  have same := enough inner [] ['.'] outerTree bareTree fun path member =>
    (own_files_absent path member).1.trans (own_files_absent path member).2.symm
  have bare : fromDirectory bareTree inner [] ['.'] = .ok {} := by
    rw [fromDirectory]
    exact default_settings [] (by simp)
  rw [outer_settings, bare] at same
  cases same

end OrderOfGrowth.Settings
