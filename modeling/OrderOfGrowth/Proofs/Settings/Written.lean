import OrderOfGrowth.Proofs.Settings.Keys
import OrderOfGrowth.Proofs.Text.Utf8
import OrderOfGrowth.Proofs.Toml.Document
import OrderOfGrowth.Settings.Loading

/-!
Settings that were loaded, written out and loaded again. Under the same variables the written file
stands for all layers that the settings came from: what the variables leave alone is read from it,
and what they set is the same again (`written_settings_load`).
-/

set_option autoImplicit false

namespace OrderOfGrowth.Settings

open Layered (onto ontoMember override overrideMembers HasMembers)

-- A setting over two bases. It is the same over both, or what it is over the other base reads as
-- wanted, or it is a table over this base, and that is never read.
inductive Key.Agrees (key : Key) (wanted : Value) : Option Layered → Option Layered → Prop
  | same (found : Option Layered) : Agrees key wanted found found
  | reads (one other : Option Layered) : key.read? other = some wanted → Agrees key wanted one other
  | spoiled (source : Source) (members : List (Text × Layered)) (other : Option Layered) :
      Agrees key wanted (some (.table source members)) other

-- A section over two bases, for one setting. It may be a list over this base and a table over the
-- other; from the first newer table on it is one over both.
inductive Key.SectionAgrees (key : Key) (wanted : Value) : Option Layered → Option Layered → Prop
  | same (found : Option Layered) : SectionAgrees key wanted found found
  | reads (one : Layered) (source : Source) (other : List (Text × Layered)) :
      key.read? (other.lookup key.name) = some wanted → SectionAgrees key wanted (some one) (some (.table source other))
  | tables (source otherSource : Source) (one other : List (Text × Layered)) :
      key.Agrees wanted (one.lookup key.name) (other.lookup key.name) →
      SectionAgrees key wanted (some (.table source one)) (some (.table otherSource other))

namespace Key

variable (key : Key) (wanted : Value)

theorem agrees_onto (value : Layered) (one other : Option Layered) :
    key.Agrees wanted (some (onto value one)) (some (onto value other)) := by
  cases value with
  | leaf source value =>
      rw [Layered.onto_leaf, Layered.onto_leaf]
      exact .same _
  | table source members =>
      obtain ⟨merged, shape⟩ := Layered.onto_table source members one
      rw [shape]
      exact .spoiled source merged _

theorem agrees_merged (source otherSource : Source) (members one other : List (Text × Layered))
    (agrees : key.Agrees wanted (one.lookup key.name) (other.lookup key.name)) :
    key.SectionAgrees wanted (some (.table source (overrideMembers members one)))
      (some (.table otherSource (overrideMembers members other))) := by
  apply SectionAgrees.tables
  rw [Layered.lookup_override_members, Layered.lookup_override_members]
  exact Layered.members_kept (key.Agrees wanted) (fun value one other _ => key.agrees_onto wanted value one other)
    _ members _ _ agrees

theorem section_agrees_onto (value : Layered) (one other : Option Layered)
    (agrees : key.SectionAgrees wanted one other) :
    key.SectionAgrees wanted (some (onto value one)) (some (onto value other)) := by
  cases value with
  | leaf source value =>
      rw [Layered.onto_leaf, Layered.onto_leaf]
      exact .same _
  | table source members =>
      cases agrees with
      | same => exact .same _
      | tables _ _ one other agrees =>
          simp only [onto, override]
          exact key.agrees_merged wanted source source members one other agrees
      | reads one _ other good =>
          cases one <;>
          · simp only [onto, override]
            exact key.agrees_merged wanted source source members _ other (.reads _ _ good)

theorem settled_agrees (one other : Option Layered) (agrees : key.SectionAgrees wanted one other)
    (settled : key.settled? one = some wanted) : key.settled? other = some wanted := by
  cases agrees with
  | same => exact settled
  | reads one source other good => exact good
  | tables source otherSource one other agrees =>
      rw [settled?] at settled ⊢
      generalize one.lookup key.name = found at settled agrees
      cases agrees with
      | same => exact settled
      | reads _ _ reads => exact reads
      | spoiled => cases settled

end Key

-- Settings read from a layer over one base are read from the same layer over the other.
theorem read_agrees (settings : Settings) (layer : Layered) (source otherSource : Source)
    (one other : List (Text × Layered))
    (agrees : ∀ key : Key, key.SectionAgrees (key.valueIn settings) (one.lookup key.part) (other.lookup key.part))
    (accepted : read (override layer (.table source one)) = .ok settings) :
    read (override layer (.table otherSource other)) = .ok settings := by
  cases layer with
  | leaf source value =>
      rw [override] at accepted ⊢
      exact accepted
  | table source members =>
      rw [override, read_iff] at accepted ⊢
      intro key
      have settled := accepted key
      rw [Layered.lookup_override_members] at settled ⊢
      have kept := Layered.members_kept (key.SectionAgrees (key.valueIn settings))
        (key.section_agrees_onto (key.valueIn settings)) key.part members _ _ (agrees key)
      exact key.settled_agrees _ _ _ kept settled

def writtenLayer (shown : Text) (settings : Settings) : Layered :=
  Layered.ofValue (.file shown) (.table (Toml.tables settings))

def IsTable (layer : Layered) : Prop :=
  ∃ source members, layer = .table source members

def parts : List Text :=
  ["output".toList, "highlight".toList, "report".toList]

theorem part_listed (key : Key) : key.part ∈ parts := by
  cases key <;> decide

theorem base_has_sections (layers : List Layered) (tables : ∀ layer ∈ layers, IsTable layer) :
    HasMembers parts (Layered.merge (defaultLayer :: layers)) := by
  apply Layered.override_all_has_members _ layers _ tables
  refine ⟨.defaults, _, rfl, ?_⟩
  simp only [parts, List.forall_mem_cons]
  exact ⟨⟨_, rfl⟩, ⟨_, rfl⟩, ⟨_, rfl⟩, by simp⟩

theorem written_reads (settings : Settings) (shown : Text) : ∃ members,
    Layered.merge [defaultLayer, writtenLayer shown settings] = .table (.file shown) members ∧
      ∀ key : Key, ∃ source inner, members.lookup key.part = some (.table source inner) ∧
        key.read? (inner.lookup key.name) = some (key.valueIn settings) := by
  refine ⟨_, rfl, fun key => ?_⟩
  have own := accepted_own key settings
  cases key <;> exact ⟨_, _, rfl, own⟩

-- Settings that load under these variables, in one of the two ways.
def Loads (environment : List (Text × Text)) (settings : Settings) : Prop :=
  (∃ tree working path, fromFile tree working environment path = .ok settings) ∨
    ∃ tree working directory, fromDirectory tree working environment directory = .ok settings

theorem combine_reads (files : List (Text × Except FileFault Layered)) (environment : List (Text × Text))
    (settings : Settings) (combined : combine files environment = .ok settings) :
    read (override (environmentLayer environment) (Layered.merge (defaultLayer :: files.filterMap (·.2.toOption)))) =
      .ok settings := by
  unfold combine at combined
  dsimp only at combined
  split at combined
  · cases combined
  · split at combined
    · rename_i accepted
      cases combined
      exact accepted
    · cases combined

-- Settings that load are from files without faults.
theorem combine_faultless (files : List (Text × Except FileFault Layered)) (environment : List (Text × Text))
    (settings : Settings) (combined : combine files environment = .ok settings) :
    ∀ file ∈ files, ∃ layer, file.2 = .ok layer := by
  intro file member
  unfold combine at combined
  dsimp only at combined
  split at combined
  · cases combined
  · rename_i faultless
    obtain ⟨shown, layer⟩ := file
    cases layer with
    | ok layer => exact ⟨layer, rfl⟩
    | error fault =>
        refine absurd (List.filterMap_eq_nil_iff.mp (not_not.mp faultless) _ member) ?_
        intro none
        cases none

theorem combine_accepts (layers : List (Text × Layered)) (environment : List (Text × Text))
    (settings : Settings)
    (accepted : read (override (environmentLayer environment) (Layered.merge (defaultLayer :: layers.map Prod.snd))) =
      .ok settings) :
    combine (layers.map fun layer => (layer.1, .ok layer.2)) environment = .ok settings := by
  have noFaults : layers.filterMap (fun _ => (none : Option (FileFault × Text))) = [] := by
    simp
  have kept : layers.filterMap (fun layer => some layer.2) = layers.map Prod.snd := by
    rw [List.filterMap_eq_map']
  simp only [combine, List.filterMap_map, Function.comp_def, Except.toOption, noFaults, kept, accepted]
  rfl

-- A layer of a file is what the document in it says.
theorem layer_of_file_ok (tree : Files.Tree) (working : Files.Place) (path shown : Text) (layer : Layered)
    (found : layerOfFile tree working path shown = .ok layer) :
    ∃ bytes s members, tree.read working path = .ok bytes ∧ Text.decodeStrict? bytes = some s ∧
      Toml.parse? s = some members ∧ layer = Layered.ofValue (.file shown) (.table members) := by
  unfold layerOfFile layerOfBytes at found
  split at found
  · cases found
  · rename_i bytes held
    split at found
    · cases found
    · rename_i s decoded
      split at found
      · cases found
      · rename_i members parsed
        exact ⟨bytes, s, members, held, decoded, parsed, (Except.ok.inj found).symm⟩

theorem layer_of_file_table (tree : Files.Tree) (working : Files.Place) (path shown : Text) (layer : Layered)
    (found : layerOfFile tree working path shown = .ok layer) : IsTable layer := by
  obtain ⟨_, _, members, -, -, -, rfl⟩ := layer_of_file_ok tree working path shown layer found
  exact ⟨_, _, rfl⟩

theorem file_layers_tables (files : List (Text × Except FileFault Layered))
    (fromFiles : ∀ file ∈ files, ∃ tree working path shown, file.2 = layerOfFile tree working path shown) :
    ∀ layer ∈ files.filterMap (·.2.toOption), IsTable layer := by
  intro layer member
  obtain ⟨file, inside, kept⟩ := List.mem_filterMap.mp member
  obtain ⟨tree, working, path, shown, same⟩ := fromFiles file inside
  apply layer_of_file_table tree working path shown layer
  rw [← same]
  cases found : file.2 with
  | error fault =>
      rw [found] at kept
      cases kept
  | ok value =>
      rw [found] at kept
      cases kept
      rfl

theorem loads_layers (environment : List (Text × Text)) (settings : Settings)
    (loads : Loads environment settings) :
    ∃ layers, (∀ layer ∈ layers, IsTable layer) ∧
      read (override (environmentLayer environment) (Layered.merge (defaultLayer :: layers))) = .ok settings := by
  rcases loads with ⟨tree, working, path, loaded⟩ | ⟨tree, working, directory, loaded⟩
  · unfold fromFile at loaded
    split at loaded
    · refine ⟨_, file_layers_tables _ ?_, combine_reads _ environment settings loaded⟩
      intro file member
      rw [List.mem_singleton] at member
      exact ⟨tree, working, path, path, congrArg Prod.snd member⟩
    · cases loaded
  · refine ⟨_, file_layers_tables _ ?_, combine_reads _ environment settings loaded⟩
    intro file member
    obtain ⟨name, -, sought⟩ := List.mem_filterMap.mp member
    obtain ⟨place, -, same⟩ := Option.map_eq_some_iff.mp sought
    exact ⟨tree, place, name, _, congrArg Prod.snd same.symm⟩

theorem layer_of_written (tree : Files.Tree) (working : Files.Place) (path shown : Text) (settings : Settings)
    (holds : tree.read working path = .ok (Text.encode (Toml.write settings))) :
    layerOfFile tree working path shown = .ok (writtenLayer shown settings) := by
  rw [layerOfFile, holds]
  simp only [layerOfBytes, Text.decode_strict_encode, Toml.parse_write]
  rfl

theorem read_is_there (tree : Files.Tree) (working : Files.Place) (path : Text) (bytes : List UInt8)
    (holds : tree.read working path = .ok bytes) : tree.isThere working path = true := by
  rw [Files.Tree.isThere]
  rw [Files.Tree.read] at holds
  cases place : tree.resolve working path with
  | ok _ => rfl
  | error refusal =>
      rw [place] at holds
      cases holds

/-- Settings that were loaded are loaded again, under the same variables, from a file that they were
written to. -/
theorem written_settings_load (environment : List (Text × Text)) (settings : Settings)
    (loads : Loads environment settings) (tree : Files.Tree) (working : Files.Place) (path : Text)
    (holds : tree.read working path = .ok (Text.encode (Toml.write settings))) :
    fromFile tree working environment path = .ok settings ∧
      (fromFile tree working environment path).map Toml.write = .ok (Toml.write settings) := by
  obtain ⟨layers, tables, accepted⟩ := loads_layers environment settings loads
  obtain ⟨source, one, base, has⟩ := base_has_sections layers tables
  obtain ⟨other, written, reads⟩ := written_reads settings path
  have again : read (override (environmentLayer environment)
      (Layered.merge [defaultLayer, writtenLayer path settings])) = .ok settings := by
    rw [base] at accepted
    rw [written]
    apply read_agrees settings _ source (.file path) one other _ accepted
    intro key
    obtain ⟨value, found⟩ := has key.part (part_listed key)
    obtain ⟨partSource, inner, otherFound, good⟩ := reads key
    rw [found, otherFound]
    exact .reads value partSource inner good
  have there := read_is_there tree working path _ holds
  have loaded : fromFile tree working environment path = .ok settings := by
    rw [fromFile, if_pos there, layer_of_written tree working path path settings holds]
    exact combine_accepts [(path, writtenLayer path settings)] environment settings again
  exact ⟨loaded, by rw [loaded]; rfl⟩

-- Two variables, one of which needs several lines, three quotes and a backslash to be written.
def titleVariables : List (Text × Text) :=
  [("BIGO_OUTPUT__FORMAT".toList, "json".toList), ("BIGO_REPORT__TITLE".toList, "it's\n\"\"\"\\".toList)]

def titleSettings : Settings :=
  { output := { format := .json }
    report := { title := "it's\n\"\"\"\\".toList } }

theorem title_layer : environmentLayer titleVariables =
    .table .environment
      [("output".toList, .table .environment [("format".toList, .leaf .environment (.text "json".toList))]),
        ("report".toList, .table .environment
          [("title".toList, .leaf .environment (.text "it's\n\"\"\"\\".toList))])] := by
  have found : fromEnvironment titleVariables =
      [.table [("output".toList, .table [("format".toList, .text "json".toList)])],
        .table [("report".toList, .table [("title".toList, .text "it's\n\"\"\"\\".toList)])]] := rfl
  rw [environmentLayer, found]
  rfl

theorem title_settings_load : fromDirectory (.directory []) [] titleVariables [] = .ok titleSettings := by
  have noFiles : (fileNames []).filterMap (soughtLayer (.directory []) []) = [] := rfl
  rw [fromDirectory, noFiles]
  apply combine_accepts []
  rw [title_layer]
  rfl

def treeOf (s : Text) : Files.Tree :=
  .directory [("bigo.toml".toList, .file (Text.encode s))]

theorem tree_of_read (s : Text) : (treeOf s).read [] "bigo.toml".toList = .ok (Text.encode s) :=
  rfl

theorem title_settings_load_again :
    Loads titleVariables titleSettings ∧
      fromFile (treeOf (Toml.write titleSettings)) [] titleVariables "bigo.toml".toList =
        .ok titleSettings := by
  have loads : Loads titleVariables titleSettings := .inr ⟨_, _, _, title_settings_load⟩
  have again := written_settings_load titleVariables titleSettings loads (treeOf (Toml.write titleSettings)) []
    "bigo.toml".toList (tree_of_read (Toml.write titleSettings))
  exact ⟨loads, again.1⟩

end OrderOfGrowth.Settings
