import OrderOfGrowth.Proofs.Settings.Given
import OrderOfGrowth.Proofs.Settings.Written
import Mathlib

/-!
Where settings come from. The variables are one layer that gives what each of them says
(`environment_gives`), a file is a layer too, and each setting is what the newest layer that has it says
(`files_resolve`).
-/

set_option autoImplicit false

namespace OrderOfGrowth.Settings

def lowered (name : Text) : Text :=
  (Text.trimBy Text.isWhiteSpace name).map Char.toLower

-- The name of the variable for a setting, in lower case.
def Key.variableName (key : Key) : Text :=
  variableMark ++ key.part ++ "__".toList ++ key.name

-- A variable is for a setting, in whatever case its name is written.
def Key.Names (key : Key) (name : Text) : Prop :=
  lowered name = key.variableName

instance (key : Key) (name : Text) : Decidable (key.Names name) :=
  inferInstanceAs (Decidable (lowered name = key.variableName))

-- A variable for a member of a section that is no setting.
def Foreign (name : Text) : Prop :=
  ∃ part own, variablePath? name = some [part, own] ∧ ∀ key : Key, ¬ (part = key.part ∧ own = key.name)

-- An environment with one variable for a setting at most, each with a scalar. Variables for other names
-- may be there too, and so may any without the mark.
structure Variables (environment : List (Text × Text)) : Prop where
  marked : ∀ entry ∈ environment, (Text.after? variableMark (lowered entry.1)).isSome = true →
    (∃ key : Key, key.Names entry.1) ∨ Foreign entry.1
  scalar : ∀ entry ∈ environment, ∀ key : Key, key.Names entry.1 →
    (variableValue entry.2).isScalar = true
  once : environment.Pairwise fun one other => ∀ key : Key, key.Names one.1 → ¬ key.Names other.1

def fromVariable? (key : Key) (environment : List (Text × Text)) : Option Value :=
  (environment.find? fun entry => key.Names entry.1).map fun entry => variableValue entry.2

theorem named_path (key : Key) (name : Text) (names : key.Names name) :
    variablePath? name = some [key.part, key.name] := by
  rw [Key.Names, lowered] at names
  rw [variablePath?]
  dsimp only
  rw [names]
  cases key <;> rfl

theorem unmarked_path (name : Text) (unmarked : Text.after? variableMark (lowered name) = none) :
    variablePath? name = none := by
  rw [lowered] at unmarked
  rw [variablePath?]
  dsimp only
  rw [unmarked]

theorem key_injective (key other : Key) (part : key.part = other.part) (name : key.name = other.name) :
    key = other := by
  revert part name
  cases key <;> cases other <;> decide

-- A variable for a setting or for another name is for a member of a section, and for which it says.
theorem marked_path (name : Text) (known : (∃ key : Key, key.Names name) ∨ Foreign name) :
    ∃ part own, variablePath? name = some [part, own] ∧
      ∀ key : Key, part = key.part ∧ own = key.name ↔ key.Names name := by
  rcases known with ⟨other, names⟩ | ⟨part, own, path, foreign⟩
  · refine ⟨other.part, other.name, named_path other name names, fun key => ⟨?_, fun also => ?_⟩⟩
    · rintro ⟨samePart, sameName⟩
      obtain rfl := key_injective other key samePart sameName
      exact names
    · have same := (named_path other name names).symm.trans (named_path key name also)
      simp only [Option.some.injEq, List.cons.injEq, and_true] at same
      exact same
  · refine ⟨part, own, path, fun key => ⟨fun same => absurd same (foreign key), fun names => ?_⟩⟩
    have same := path.symm.trans (named_path key name names)
    simp only [Option.some.injEq, List.cons.injEq, and_true] at same
    exact same

section

variable (part own : Text) (value : Value) (key : Key)

-- What a variable says, as a document.
theorem given_by_variable :
    given? key [(part, .table [(own, value)])] =
      if part = key.part ∧ own = key.name then some value else none := by
  rw [given?, last?, List.reverse_singleton]
  by_cases samePart : part = key.part
  · rw [samePart, List.lookup_cons_self]
    dsimp only
    rw [last?, List.reverse_singleton]
    by_cases sameName : own = key.name
    · rw [sameName, List.lookup_cons_self, if_pos ⟨rfl, rfl⟩]
    · rw [Layered.lookup_other _ _ _ _ sameName, if_neg fun same => sameName same.2]
      rfl
  · rw [Layered.lookup_other _ _ _ _ samePart, if_neg fun same => samePart same.1]
    rfl

theorem plain_by_variable (scalar : part = key.part ∧ own = key.name → value.isScalar = true) :
    PlainFor key [(part, .table [(own, value)])] where
  table found same := by
    rw [last?, List.reverse_singleton] at same
    by_cases here : part = key.part
    · rw [here, List.lookup_cons_self] at same
      cases same
      exact ⟨_, rfl⟩
    · rw [Layered.lookup_other _ _ _ _ here] at same
      cases same
  scalar found same := by
    rw [given_by_variable] at same
    split at same
    · rename_i here
      cases same
      exact scalar here
    · cases same

end

section

variable (entry : Text × Text) (environment : List (Text × Text))

theorem values_of_unmarked (unmarked : variablePath? entry.1 = none) :
    fromEnvironment (entry :: environment) = fromEnvironment environment := by
  simp only [fromEnvironment, List.filterMap_cons, unmarked, Option.map_none]

theorem values_of_marked (path : List Text) (marked : variablePath? entry.1 = some path) :
    fromEnvironment (entry :: environment) = nest (variableValue entry.2) path :: fromEnvironment environment := by
  simp only [fromEnvironment, List.filterMap_cons, marked, Option.map_some]

theorem from_variable_named (key : Key) (names : key.Names entry.1) :
    fromVariable? key (entry :: environment) = some (variableValue entry.2) := by
  rw [fromVariable?, List.find?_cons_of_pos (by simpa using names), Option.map_some]

theorem from_variable_other (key : Key) (other : ¬ key.Names entry.1) :
    fromVariable? key (entry :: environment) = fromVariable? key environment := by
  rw [fromVariable?, List.find?_cons_of_neg (by simpa using other), fromVariable?]

theorem Variables.tail (sound : Variables (entry :: environment)) : Variables environment where
  marked other member := sound.marked other (List.mem_cons_of_mem _ member)
  scalar other member := sound.scalar other (List.mem_cons_of_mem _ member)
  once := sound.once.of_cons

theorem Variables.no_second (sound : Variables (entry :: environment)) (key : Key) (names : key.Names entry.1) :
    fromVariable? key environment = none := by
  rw [fromVariable?, Option.map_eq_none_iff, List.find?_eq_none]
  intro other member
  simpa using List.rel_of_pairwise_cons sound.once member key names

end

-- Variables over what some others have given.
theorem variables_give (key : Key) (environment : List (Text × Text)) (sound : Variables environment)
    (given : Option Value) (below : Layered) (gives : Layered.Gives key given below) :
    Layered.Gives key ((fromVariable? key environment).or given)
      (((fromEnvironment environment).map (Layered.ofValue .environment)).foldl
        (fun below layer => Layered.override layer below) below) := by
  induction environment generalizing given below with
  | nil => exact gives
  | cons entry environment ih =>
      have rest := ih sound.tail
      cases marked : Text.after? variableMark (lowered entry.1) with
      | none =>
          have path := unmarked_path entry.1 marked
          have apart : ¬ key.Names entry.1 := fun names => by
            rw [named_path key entry.1 names] at path
            cases path
          rw [values_of_unmarked entry environment path, from_variable_other entry environment key apart]
          exact rest given below gives
      | some after =>
          obtain ⟨part, own, path, names⟩ :=
            marked_path entry.1 (sound.marked entry List.mem_cons_self (by rw [marked]; rfl))
          have plain := plain_by_variable part own (variableValue entry.2) key fun here =>
            sound.scalar entry List.mem_cons_self key ((names key).mp here)
          have step := Layered.override_gives key _ _ _ below (Layered.document_gives key .environment _ plain) gives
          rw [given_by_variable] at step
          rw [values_of_marked entry environment _ path, List.map_cons, List.foldl_cons]
          have run := rest _ _ step
          by_cases named : key.Names entry.1
          · rw [sound.no_second _ _ key named, if_pos ((names key).mpr named), Option.none_or] at run
            rw [from_variable_named entry environment key named]
            exact run
          · rw [if_neg (mt (names key).mp named), Option.none_or] at run
            rw [from_variable_other entry environment key named]
            exact run

theorem environment_gives (key : Key) (environment : List (Text × Text)) (sound : Variables environment) :
    Layered.Gives key (fromVariable? key environment) (environmentLayer environment) := by
  have gives := variables_give key environment sound none _ (Layered.empty_gives key .defaults)
  rwa [Option.or_none] at gives

-- A file holds a document.
def Holds (tree : Files.Tree) (working : Files.Place) (path : Text) (members : List (Text × Value)) : Prop :=
  ∃ bytes s, tree.read working path = .ok bytes ∧ Text.decodeStrict? bytes = some s ∧ Toml.parse? s = some members

-- What is found of a file: nothing at all, or a document.
inductive Finds (tree : Files.Tree) (working : Files.Place) (path : Text) : List (Text × Value) → Prop
  | nothing : findUpward tree working path = none → Finds tree working path []
  | document (place : Files.Place) (members : List (Text × Value)) :
      findUpward tree working path = some place → Holds tree place path members → Finds tree working path members

def fileLayer (file : Text × List (Text × Value)) : Text × Except FileFault Layered :=
  (file.1, .ok (Layered.ofValue (.file file.1) (.table file.2)))

theorem layer_of_held (tree : Files.Tree) (working : Files.Place) (path shown : Text) (members : List (Text × Value))
    (holds : Holds tree working path members) :
    (shown, layerOfFile tree working path shown) = fileLayer (shown, members) := by
  obtain ⟨bytes, s, held, decoded, parsed⟩ := holds
  rw [layerOfFile, held]
  simp only [layerOfBytes, decoded, parsed]
  rfl

-- A file that is sought is one layer, or none if there is none.
theorem files_of_finds (tree : Files.Tree) (working : Files.Place) (path : Text) (members : List (Text × Value))
    (finds : Finds tree working path members) :
    ∃ files : List (Text × List (Text × Value)), (soughtLayer tree working path).toList = files.map fileLayer ∧
      (files = [] ∧ members = [] ∨ ∃ shown, files = [(shown, members)]) := by
  cases finds with
  | nothing none =>
      refine ⟨[], ?_, .inl ⟨rfl, rfl⟩⟩
      rw [soughtLayer, none]
      rfl
  | document place _ found holds =>
      refine ⟨[(shownPath working place path, members)], ?_, .inr ⟨_, rfl⟩⟩
      rw [soughtLayer, found, Option.map_some]
      exact congrArg ([·]) (layer_of_held tree place path _ members holds)

theorem sought_of_finds (tree : Files.Tree) (working : Files.Place) (path : Text) (members : List (Text × Value))
    (finds : Finds tree working path members) :
    ∃ files : List (Text × List (Text × Value)),
      (soughtLayer tree working path).toList = files.map fileLayer ∧ (∀ file ∈ files, file.2 = members) ∧
        ∀ (key : Key) (value : Value),
          files.foldl (fun value file => (given? key file.2).getD value) value =
            (given? key members).getD value := by
  obtain ⟨files, sought, shape⟩ := files_of_finds tree working path members finds
  refine ⟨files, sought, ?_⟩
  rcases shape with ⟨rfl, rfl⟩ | ⟨shown, rfl⟩
  · exact ⟨by simp, fun key value => rfl⟩
  · exact ⟨by simp, fun key value => rfl⟩

theorem sought_files (tree : Files.Tree) (working : Files.Place) (directory : Text) :
    (fileNames directory).filterMap (soughtLayer tree working) =
      (soughtLayer tree working (Files.Path.join directory "bigo.toml".toList)).toList ++
        (soughtLayer tree working (Files.Path.join directory ".bigo/bigo.toml".toList)).toList := by
  rw [fileNames, List.filterMap_cons, List.filterMap_cons]
  cases soughtLayer tree working (Files.Path.join directory "bigo.toml".toList) <;>
    cases soughtLayer tree working (Files.Path.join directory ".bigo/bigo.toml".toList) <;> rfl

-- Loading settles every setting by one value: it succeeds if all of them are accepted, and then they
-- are the settings.
def Resolves (loaded : Except LoadError Settings) (winning : Key → Value) : Prop :=
  (∀ settings, loaded = .ok settings ↔
    ∀ key : Key, key.accepted? (winning key) = some (key.valueIn settings)) ∧
  ((∃ settings, loaded = .ok settings) ↔ ∀ key : Key, (key.accepted? (winning key)).isSome = true)

theorem combine_iff (layers : List (Text × Layered)) (environment : List (Text × Text)) (settings : Settings) :
    combine (layers.map fun layer => (layer.1, .ok layer.2)) environment = .ok settings ↔
      read (Layered.override (environmentLayer environment) (Layered.merge (defaultLayer :: layers.map Prod.snd))) =
        .ok settings := by
  constructor
  · intro combined
    have reads := combine_reads _ environment settings combined
    rw [List.filterMap_map] at reads
    have kept : layers.filterMap (fun layer => some layer.2) = layers.map Prod.snd := by
      rw [List.filterMap_eq_map']
    rw [← kept]
    exact reads
  · exact combine_accepts layers environment settings

def mergedFiles (files : List (Text × List (Text × Value))) : Layered :=
  (files.map fun file => Layered.ofValue (.file file.1) (.table file.2)).foldl
    (fun below layer => Layered.override layer below) (Layered.merge [defaultLayer])

theorem combine_files_iff (files : List (Text × List (Text × Value))) (environment : List (Text × Text))
    (settings : Settings) :
    combine (files.map fileLayer) environment = .ok settings ↔
      read (Layered.override (environmentLayer environment) (mergedFiles files)) = .ok settings := by
  have layers : files.map fileLayer =
      (files.map fun file => (file.1, Layered.ofValue (.file file.1) (.table file.2))).map
        fun layer => (layer.1, .ok layer.2) := by
    rw [List.map_map]
    rfl
  rw [layers, combine_iff, List.map_map]
  rfl

-- A variable for a whole section takes nothing from a file if one for a setting of it is behind it.
example :
    combine [fileLayer ([], [("output".toList, .table [("color".toList, .flag false)])])]
      [("BIGO_OUTPUT".toList, ['1']), ("BIGO_OUTPUT__FORMAT".toList, "json".toList)] =
        .ok { output := { format := .json, color := false } } := by
  have joined : environmentLayer [("BIGO_OUTPUT".toList, ['1']), ("BIGO_OUTPUT__FORMAT".toList, "json".toList)] =
      .table .environment
        [("output".toList, .table .environment [("format".toList, .leaf .environment (.text "json".toList))])] := by
    cbv
  refine combine_accepts [(_, _)] _ _ ?_
  rw [joined]
  rfl

theorem files_resolve (files : List (Text × List (Text × Value))) (environment : List (Text × Text))
    (plain : ∀ file ∈ files, ∀ key, PlainFor key file.2) (sound : Variables environment) :
    Resolves (combine (files.map fileLayer) environment) fun key =>
      (fromVariable? key environment).getD
        (files.foldl (fun value file => (given? key file.2).getD value) (key.valueIn {})) := by
  have each (key : Key) := Layered.override_gives key _ _ _ _ (environment_gives key environment sound)
    (Layered.files_give key files (fun file member => plain file member key) _ _ (Layered.default_gives key))
  simp only [Option.or_some] at each
  have settled (settings : Settings) := read_given_iff _ _ each settings
  have loaded (settings : Settings) : combine (files.map fileLayer) environment = .ok settings ↔
      ∀ key : Key, key.accepted? ((fromVariable? key environment).getD
        (files.foldl (fun value file => (given? key file.2).getD value) (key.valueIn {}))) =
          some (key.valueIn settings) :=
    (combine_files_iff files environment settings).trans (settled settings)
  refine ⟨loaded, ?_⟩
  rw [← settings_of_accepted]
  exact exists_congr loaded

/-- Every setting is what the newest layer that has it says: a variable, then the hidden file, then the
other one, then the default. Loading succeeds if these values are accepted, whatever they replace. -/
theorem settings_resolve (environment : List (Text × Text)) (sound : Variables environment) :
    (∀ tree working directory plain hidden,
      Finds tree working (Files.Path.join directory "bigo.toml".toList) plain →
      Finds tree working (Files.Path.join directory ".bigo/bigo.toml".toList) hidden →
      (∀ key, PlainFor key plain) → (∀ key, PlainFor key hidden) →
      Resolves (fromDirectory tree working environment directory) fun key =>
        ((fromVariable? key environment).or ((given? key hidden).or (given? key plain))).getD
          (key.valueIn {})) ∧
    ∀ tree working path members, Holds tree working path members → (∀ key, PlainFor key members) →
      Resolves (fromFile tree working environment path) fun key =>
        ((fromVariable? key environment).or (given? key members)).getD (key.valueIn {}) := by
  constructor
  · intro tree working directory plain hidden findsPlain findsHidden plainPlain hiddenPlain
    obtain ⟨plainFiles, plainSought, plainOnly, plainFold⟩ := sought_of_finds tree working _ plain findsPlain
    obtain ⟨hiddenFiles, hiddenSought, hiddenOnly, hiddenFold⟩ := sought_of_finds tree working _ hidden findsHidden
    have allPlain : ∀ file ∈ plainFiles ++ hiddenFiles, ∀ key, PlainFor key file.2 := by
      intro file member
      rcases List.mem_append.mp member with inPlain | inHidden
      · rw [plainOnly file inPlain]
        exact plainPlain
      · rw [hiddenOnly file inHidden]
        exact hiddenPlain
    have found : (fileNames directory).filterMap (soughtLayer tree working) =
        (plainFiles ++ hiddenFiles).map fileLayer := by
      rw [List.map_append, ← plainSought, ← hiddenSought, sought_files]
    have resolves := files_resolve (plainFiles ++ hiddenFiles) environment allPlain sound
    simp only [List.foldl_append, plainFold, hiddenFold] at resolves
    rw [fromDirectory, found]
    simpa only [Option.getD_or] using resolves
  · intro tree working path members holds plain
    obtain ⟨bytes, s, held, -⟩ := id holds
    have resolves := files_resolve [(path, members)] environment (by simpa using plain) sound
    rw [fromFile, if_pos (read_is_there tree working path bytes held),
      layer_of_held tree working path path members holds]
    simp only [Option.getD_or]
    exact resolves

-- A switch that is no boolean is put right by a variable, and the title is in both files.
def layeredVariables : List (Text × Text) :=
  [("PATH".toList, "/bin".toList), ("Bigo_Output__Color".toList, "false".toList)]

def plainDocument : Text :=
  "other = 'x'\n[output]\ncolor = 3\nformat = \"json\"\n[report]\ntitle = \"Old\"\n".toList

def hiddenDocument : Text :=
  "[report]\ntitle = \"New\"\n".toList

def plainMembers : List (Text × Value) :=
  [("other".toList, .text ['x']),
    ("output".toList, .table [("color".toList, .signed 3), ("format".toList, .text "json".toList)]),
    ("report".toList, .table [("title".toList, .text "Old".toList)])]

def hiddenMembers : List (Text × Value) :=
  [("report".toList, .table [("title".toList, .text "New".toList)])]

def layeredTree : Files.Tree :=
  .directory [("bigo.toml".toList, .file (Text.encode plainDocument)),
    (".bigo".toList, .directory [("bigo.toml".toList, .file (Text.encode hiddenDocument))])]

def layeredSettings : Settings :=
  { output := { format := .json, color := false }
    report := { title := "New".toList } }

theorem path_unnamed (key : Key) : ¬ key.Names "PATH".toList := by
  cases key <;> decide

theorem color_named (key : Key) : key.Names "Bigo_Output__Color".toList ↔ key = .color := by
  cases key <;> decide

theorem false_flag : variableValue "false".toList = .flag false := by
  cbv

theorem layered_variables : Variables layeredVariables where
  marked := by
    refine List.forall_mem_cons.mpr ⟨?_, List.forall_mem_singleton.mpr ?_⟩
    · intro marked
      exact absurd marked (by decide)
    · exact fun _ => .inl ⟨.color, (color_named .color).mpr rfl⟩
  scalar := by
    refine List.forall_mem_cons.mpr ⟨?_, List.forall_mem_singleton.mpr ?_⟩
    · exact fun key names => absurd names (path_unnamed key)
    · intro key _
      rw [false_flag]
      rfl
  once := by
    refine List.Pairwise.cons (List.forall_mem_singleton.mpr ?_) (List.pairwise_singleton _ _)
    exact fun key names => absurd names (path_unnamed key)

theorem layered_from_variable (key : Key) :
    fromVariable? key layeredVariables = if key = .color then some (.flag false) else none := by
  rw [layeredVariables, from_variable_other _ _ key (path_unnamed key)]
  by_cases same : key = .color
  · rw [if_pos same, from_variable_named _ _ key ((color_named key).mpr same), false_flag]
  · rw [if_neg same, from_variable_other _ _ key (mt (color_named key).mp same)]
    rfl

theorem plain_parsed : Toml.parse? plainDocument = some plainMembers := by
  cbv

theorem hidden_parsed : Toml.parse? hiddenDocument = some hiddenMembers := by
  cbv

theorem plain_members_plain (key : Key) : PlainFor key plainMembers where
  table value same := by
    cases key
    all_goals cases same
    all_goals exact ⟨_, rfl⟩
  scalar value same := by
    cases key
    all_goals cases same
    all_goals rfl

theorem hidden_members_plain (key : Key) : PlainFor key hiddenMembers where
  table value same := by
    cases key
    all_goals cases same
    all_goals exact ⟨_, rfl⟩
  scalar value same := by
    cases key
    all_goals cases same
    all_goals rfl

theorem layered_settings_resolve :
    Variables layeredVariables ∧
      Finds layeredTree [] "bigo.toml".toList plainMembers ∧
      Finds layeredTree [] ".bigo/bigo.toml".toList hiddenMembers ∧
      fromDirectory layeredTree [] layeredVariables [] = .ok layeredSettings ∧
      fromFile layeredTree [] layeredVariables "bigo.toml".toList =
        .ok { layeredSettings with report := { title := "Old".toList } } := by
  have plain : Holds layeredTree [] "bigo.toml".toList plainMembers :=
    ⟨_, plainDocument, by rfl, Text.decode_strict_encode _, plain_parsed⟩
  have hidden : Holds layeredTree [] ".bigo/bigo.toml".toList hiddenMembers :=
    ⟨_, hiddenDocument, by rfl, Text.decode_strict_encode _, hidden_parsed⟩
  have findsPlain : Finds layeredTree [] "bigo.toml".toList plainMembers := .document [] _ (by rfl) plain
  have findsHidden : Finds layeredTree [] ".bigo/bigo.toml".toList hiddenMembers := .document [] _ (by rfl) hidden
  obtain ⟨directory, file⟩ := settings_resolve layeredVariables layered_variables
  have fromBoth := directory layeredTree [] [] plainMembers hiddenMembers findsPlain findsHidden
    plain_members_plain hidden_members_plain
  have fromOne := file layeredTree [] "bigo.toml".toList plainMembers plain plain_members_plain
  refine ⟨layered_variables, findsPlain, findsHidden, (fromBoth.1 _).mpr ?_, (fromOne.1 _).mpr ?_⟩
  · intro key
    dsimp only
    rw [layered_from_variable]
    cases key <;> rfl
  · intro key
    dsimp only
    rw [layered_from_variable]
    cases key <;> rfl

end OrderOfGrowth.Settings
