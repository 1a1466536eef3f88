import OrderOfGrowth.Proofs.Settings.Directory
import OrderOfGrowth.Proofs.Settings.Values

/-!
Settings with one variable over them. The variable settles its setting, and of its section it leaves what a
table says (`read_under_variable`); a section that is a list it replaces. Whatever files the settings are
from, with a variable for a text over them they load if its value reads as a text (`files_set`).
-/

set_option autoImplicit false

namespace OrderOfGrowth.Settings

open Layered (onto override overrideMembers)

section Single

variable (name : Text) (layer : Layered) (found : Option Layered)

-- A section with one setting, put onto what is below.
theorem onto_single : ∃ inner, onto (.table .environment [(name, layer)]) found = .table .environment inner ∧
    (∃ below, inner.lookup name = some (onto layer below)) ∧
    ∀ other, name ≠ other → inner.lookup other =
      match found with
      | some (.table _ members) => members.lookup other
      | _ => none := by
  have merged (older : List (Text × Layered)) (other : Text) :
      (overrideMembers [(name, layer)] older).lookup other =
        if name = other then some (onto layer (older.lookup other)) else older.lookup other := by
    rw [Layered.lookup_override_members]
    rfl
  cases found with
  | none =>
      refine ⟨[(name, layer)], rfl, ⟨none, List.lookup_cons_self⟩, fun other differ => ?_⟩
      rw [Layered.lookup_other _ _ _ _ differ]
      rfl
  | some below =>
      cases below with
      | leaf source value =>
          refine ⟨_, by rw [onto, override], ⟨none, ?_⟩, fun other differ => ?_⟩
          · rw [merged, if_pos rfl]
            rfl
          · rw [merged, if_neg differ]
            rfl
      | table source members =>
          refine ⟨_, by rw [onto, override], ⟨members.lookup name, ?_⟩, fun other differ => ?_⟩
          · rw [merged, if_pos rfl]
          · rw [merged, if_neg differ]

end Single

theorem table_or_leaf (source : Source) (value : Value) :
    (∃ members, value = .table members) ∨ Layered.ofValue source value = .leaf source value := by
  cases value with
  | table members => exact .inl ⟨members, rfl⟩
  | _ => exact .inr rfl

theorem read_onto (key : Key) (value : Value) (below : Option Layered) :
    key.read? (some (onto (Layered.ofValue .environment value) below)) = key.accepted? value := by
  rcases table_or_leaf .environment value with ⟨members, rfl⟩ | leaf
  · obtain ⟨merged, shape⟩ := Layered.onto_table .environment (Layered.ofMembers .environment members) below
    rw [Layered.ofValue, shape]
    cases key <;> rfl
  · rw [leaf, Layered.onto_leaf]
    rfl

-- What a newer table leaves of a section: a table stays, and gives way to the newer one by name.
def keptSection : Option Layered → Option Layered
  | some (.leaf _ _) => none
  | found => found

-- A layer with one setting.
def settingLayer (key : Key) (value : Value) : Layered :=
  Layered.ofValue .environment (nest value [key.part, key.name])

-- What a section says of a setting when a variable for another one is put over it.
def settledUnder? (key other : Key) (members : List (Text × Layered)) : Option Value :=
  if key.part = other.part then other.settled? (keptSection (members.lookup other.part))
  else other.settled? (members.lookup other.part)

section Under

variable (key : Key) (value : Value) (source : Source) (members : List (Text × Layered))

theorem setting_layer : settingLayer key value =
    .table .environment [(key.part, .table .environment [(key.name, Layered.ofValue .environment value)])] := by
  rfl

theorem settled_under_variable (other : Key) :
    other.settled? ((overrideMembers
        [(key.part, .table .environment [(key.name, Layered.ofValue .environment value)])] members).lookup other.part) =
      if key = other then key.accepted? value else settledUnder? key other members := by
  rw [Layered.lookup_override_members, List.foldl_cons, List.foldl_nil, Layered.ontoMember, settledUnder?]
  by_cases part : key.part = other.part
  · obtain ⟨inner, shape, ⟨below, own⟩, rest⟩ :=
      onto_single key.name (Layered.ofValue .environment value) (members.lookup other.part)
    rw [if_pos part, shape, Key.settled?]
    by_cases same : key = other
    · subst same
      rw [if_pos rfl, own, read_onto]
    · have differ : key.name ≠ other.name := fun name => same (key_injective key other part name)
      rw [if_neg same, if_pos part, rest other.name differ]
      cases members.lookup other.part with
      | none => rfl
      | some found => cases found <;> rfl
  · have differ : key ≠ other := fun same => part (congrArg Key.part same)
    rw [if_neg part, if_neg differ, if_neg part]

-- With a variable over them, settings are read one by one.
theorem read_under_variable (settings : Settings) :
    read (override (settingLayer key value) (.table source members)) = .ok settings ↔
      ∀ other : Key, (if key = other then key.accepted? value else settledUnder? key other members) =
        some (other.valueIn settings) := by
  rw [setting_layer, override, read_iff]
  exact forall_congr' fun other => by rw [settled_under_variable]

-- A setting of another section, or of one that is no list, is what it is without the variable.
theorem settled_under_same (other : Key) (result : Value)
    (settled : other.settled? (members.lookup other.part) = some result)
    (named : key.part = other.part → ∀ source items, members.lookup other.part ≠ some (.leaf source (.list items))) :
    settledUnder? key other members = some result := by
  rw [settledUnder?]
  split
  · rename_i part
    have noList := named part
    cases found : members.lookup other.part with
    | none => rwa [found] at settled
    | some layer =>
        cases layer with
        | table source inner => rwa [found] at settled
        | leaf source value =>
            rw [found] at settled noList
            cases value with
            | list items => exact absurd rfl (noList source items)
            | _ => cases settled
  · exact settled

theorem settled_under_replaced (other : Key) (part : key.part = other.part) (items : List Value)
    (list : members.lookup other.part = some (.leaf source (.list items))) :
    settledUnder? key other members = some (other.valueIn {}) := by
  rw [settledUnder?, if_pos part, list]
  rfl

theorem settled_under_some (other : Key) (result : Value)
    (settled : other.settled? (members.lookup other.part) = some result) :
    (settledUnder? key other members).isSome = true := by
  by_cases list : ∃ source items, members.lookup other.part = some (.leaf source (.list items))
  · obtain ⟨source, items, found⟩ := list
    rw [settledUnder?, found]
    split
    · rfl
    · rw [← found, settled]
      rfl
  · rw [settled_under_same key members other result settled fun _ source items found => list ⟨source, items, found⟩]
    rfl

end Under

-- Merged layers have a list for a section exactly if it is what is given for it.
def ListsAs (part : Text) (members : List (Text × Layered)) (given : Option Value) : Prop :=
  ∀ items, (∃ source, members.lookup part = some (.leaf source (.list items))) ↔ given = some (.list items)

-- Settings that load by themselves, with a variable for a text over them.
structure Sets (key : Key) (v : Text) (given : Option Value) (base : Settings) (loaded : Except LoadError Settings) :
    Prop where
  loads : (∃ settings, loaded = .ok settings) ↔ ∃ t, ReadsAs v t
  text : ∀ settings t, loaded = .ok settings → ReadsAs v t → key.valueIn settings = .text t
  kept : ∀ settings, loaded = .ok settings → ∀ other, other ≠ key →
    (key.part = other.part → ∀ items, given ≠ some (.list items)) → other.valueIn settings = other.valueIn base
  replaced : ∀ settings, loaded = .ok settings → ∀ other, other ≠ key → key.part = other.part →
    ∀ items, given = some (.list items) → other.valueIn settings = other.valueIn {}

section Textual

variable (key : Key) (textual : key = .language ∨ key = .title) (v : Text)

include textual

theorem accepted_iff_reads (result : Value) :
    key.accepted? (variableValue v) = some result ↔ ∃ t, ReadsAs v t ∧ result = .text t := by
  constructor
  · intro accepted
    cases value : variableValue v with
    | text t =>
        rw [value] at accepted
        rcases textual with rfl | rfl <;> exact ⟨t, .text t value, (Option.some.inj accepted).symm⟩
    | character c =>
        rw [value] at accepted
        rcases textual with rfl | rfl <;> exact ⟨[c], .character c value, (Option.some.inj accepted).symm⟩
    | _ =>
        rw [value] at accepted
        rcases textual with rfl | rfl <;> cases accepted
  · rintro ⟨t, reads, rfl⟩
    cases reads with
    | text t same => rw [same]; rcases textual with rfl | rfl <;> rfl
    | character c same => rw [same]; rcases textual with rfl | rfl <;> rfl

-- With the variable over settings that load, something is found for all settings if it is for its own.
theorem loads_under_variable (members : List (Text × Layered)) (base : Settings)
    (settled : ∀ other : Key, other.settled? (members.lookup other.part) = some (other.valueIn base)) :
    (∃ settings, ∀ other : Key,
      (if key = other then key.accepted? (variableValue v) else settledUnder? key other members) =
        some (other.valueIn settings)) ↔ ∃ t, ReadsAs v t := by
  rw [settings_of_found]
  · constructor
    · intro all
      obtain ⟨result, accepted⟩ := Option.isSome_iff_exists.mp (all key)
      rw [if_pos rfl] at accepted
      obtain ⟨t, readsAs, -⟩ := (accepted_iff_reads key textual v result).mp accepted
      exact ⟨t, readsAs⟩
    · rintro ⟨t, readsAs⟩ other
      by_cases same : key = other
      · rw [if_pos same, (accepted_iff_reads key textual v _).mpr ⟨t, readsAs, rfl⟩]
        rfl
      · rw [if_neg same]
        exact settled_under_some key members other _ (settled other)
  · intro other result found
    split at found
    · exact accepted_in_settings other _ result (‹key = other› ▸ found)
    · rw [settledUnder?] at found
      split at found
      · exact settled_in_settings other _ result found
      · exact settled_in_settings other _ result found

-- Over settings that load from some layers, for whatever reads the layers with the variable over them.
theorem variable_sets (source : Source) (members : List (Text × Layered)) (base : Settings)
    (bare : read (.table source members) = .ok base) (given : Option Value)
    (lists : ListsAs key.part members given) (loaded : Except LoadError Settings)
    (under : ∀ settings, loaded = .ok settings ↔
      read (override (settingLayer key (variableValue v)) (.table source members)) = .ok settings) :
    Sets key v given base loaded := by
  have settled := (read_iff source members base).mp bare
  have reads (settings : Settings) := (under settings).trans (read_under_variable key _ source members settings)
  constructor
  · exact (exists_congr reads).trans (loads_under_variable key textual v members base settled)
  · intro settings t found readsAs
    have accepted := (reads settings).mp found key
    rw [if_pos rfl, (accepted_iff_reads key textual v _).mpr ⟨t, readsAs, rfl⟩] at accepted
    exact (Option.some.inj accepted).symm
  · intro settings found other differ named
    have under := (reads settings).mp found other
    rw [if_neg differ.symm, settled_under_same key members other _ (settled other)] at under
    · exact (Option.some.inj under).symm
    · intro part source items list
      rw [← part] at list
      exact named part items ((lists items).mp ⟨source, list⟩)
  · intro settings found other differ part items list
    have under := (reads settings).mp found other
    obtain ⟨source, here⟩ := (lists items).mpr list
    rw [part] at here
    rw [if_neg differ.symm, settled_under_replaced key source members other part items here] at under
    exact (Option.some.inj under).symm

end Textual

-- What the newest of some files gives for a section.
def newest? (part : Text) (files : List (Text × List (Text × Value))) (older : Option Value) : Option Value :=
  files.foldl (fun found file => (last? part file.2).or found) older

theorem onto_lists (source : Source) (value : Value) (below : Option Layered) (items : List Value) :
    (∃ other, some (onto (Layered.ofValue source value) below) = some (.leaf other (.list items))) ↔
      some value = some (.list items) := by
  rcases table_or_leaf source value with ⟨members, rfl⟩ | leaf
  · obtain ⟨merged, shape⟩ := Layered.onto_table source (Layered.ofMembers source members) below
    rw [Layered.ofValue, shape]
    simp
  · rw [leaf, Layered.onto_leaf]
    simp

-- A section of merged files is a list exactly if the newest file that gives it has it so.
theorem files_list (part : Text) (files : List (Text × List (Text × Value))) (older : Option Value) (source : Source)
    (members : List (Text × Layered)) (lists : ListsAs part members older) :
    ∃ newer merged, (files.map fun file => Layered.ofValue (.file file.1) (.table file.2)).foldl
        (fun below layer => override layer below) (.table source members) = .table newer merged ∧
      ListsAs part merged (newest? part files older) := by
  induction files generalizing older source members with
  | nil => exact ⟨source, members, rfl, lists⟩
  | cons file files ih =>
      rw [List.map_cons, List.foldl_cons, Layered.ofValue, override]
      refine ih ((last? part file.2).or older) (.file file.1) _ fun items => ?_
      rw [Layered.lookup_override_of_members]
      cases last? part file.2 with
      | none => exact lists items
      | some value => exact onto_lists (.file file.1) value (members.lookup part) items

theorem merged_files_list (key : Key) (files : List (Text × List (Text × Value))) :
    ∃ source members, mergedFiles files = .table source members ∧
      ListsAs key.part members (newest? key.part files none) := by
  obtain ⟨source, members, shape, -, part⟩ := Layered.default_gives key
  rw [mergedFiles, shape]
  refine files_list key.part files none source members fun items => ⟨?_, nofun⟩
  rintro ⟨leafSource, list⟩
  rw [list] at part
  exact part.elim

theorem from_environment_append (one other : List (Text × Text)) :
    fromEnvironment (one ++ other) = fromEnvironment one ++ fromEnvironment other :=
  List.filterMap_append

section Environment

variable (key : Key) (name v : Text) (names : key.Names name) (before after : List (Text × Text))
  (unmarked : ∀ entry ∈ before ++ after, Text.after? variableMark (lowered entry.1) = none)

include names unmarked

-- A single variable is all of its layer.
theorem one_variable : environmentLayer (before ++ (name, v) :: after) = settingLayer key (variableValue v) := by
  have none := no_variables (before ++ after) unmarked
  rw [from_environment_append, List.append_eq_nil_iff] at none
  rw [environmentLayer, from_environment_append, values_of_marked (name, v) after _ (named_path key name names),
    none.1, none.2]
  rfl

theorem files_set (textual : key = .language ∨ key = .title) (files : List (Text × List (Text × Value)))
    (base : Settings) (bare : combine (files.map fileLayer) (before ++ after) = .ok base) :
    Sets key v (newest? key.part files none) base
      (combine (files.map fileLayer) (before ++ (name, v) :: after)) := by
  obtain ⟨source, members, shape, lists⟩ := merged_files_list key files
  rw [combine_files_iff, environmentLayer, no_variables _ unmarked, shape] at bare
  refine variable_sets key textual v source members base bare _ lists _ fun settings => ?_
  rw [combine_files_iff, one_variable key name v names before after unmarked, shape]

end Environment

section Files

variable (tree : Files.Tree) (working : Files.Place) (path : Text)

theorem held_of_layer (shown : Text) (layer : Layered) (found : layerOfFile tree working path shown = .ok layer) :
    ∃ members, Holds tree working path members := by
  obtain ⟨bytes, s, members, held, decoded, parsed, -⟩ := layer_of_file_ok tree working path shown layer found
  exact ⟨members, bytes, s, held, decoded, parsed⟩

theorem finds_of_sought (faultless : ∀ file ∈ (soughtLayer tree working path).toList, ∃ layer, file.2 = .ok layer) :
    ∃ members, Finds tree working path members := by
  cases found : findUpward tree working path with
  | none => exact ⟨[], .nothing found⟩
  | some place =>
      rw [soughtLayer, found] at faultless
      obtain ⟨layer, here⟩ := faultless _ List.mem_cons_self
      obtain ⟨members, holds⟩ := held_of_layer tree place path _ layer here
      exact ⟨members, .document place members found holds⟩

theorem newest_of_finds (part : Text) (members : List (Text × Value)) (finds : Finds tree working path members) :
    ∃ files : List (Text × List (Text × Value)), (soughtLayer tree working path).toList = files.map fileLayer ∧
      ∀ older, newest? part files older = (last? part members).or older := by
  obtain ⟨files, sought, shape⟩ := files_of_finds tree working path members finds
  refine ⟨files, sought, fun older => ?_⟩
  rcases shape with ⟨rfl, rfl⟩ | ⟨shown, rfl⟩ <;> rfl

end Files

section Sources

variable (key : Key) (textual : key = .language ∨ key = .title) (name v : Text) (names : key.Names name)
  (before after : List (Text × Text))
  (unmarked : ∀ entry ∈ before ++ after, Text.after? variableMark (lowered entry.1) = none)
  (tree : Files.Tree) (working : Files.Place) (base : Settings)

include textual names unmarked

theorem file_sets (path : Text) (bare : fromFile tree working (before ++ after) path = .ok base) :
    ∃ members, Holds tree working path members ∧
      Sets key v (last? key.part members) base (fromFile tree working (before ++ (name, v) :: after) path) := by
  rw [fromFile] at bare
  split at bare
  · rename_i there
    obtain ⟨layer, found⟩ := combine_faultless _ _ base bare _ List.mem_cons_self
    obtain ⟨members, holds⟩ := held_of_layer tree working path path layer found
    refine ⟨members, holds, ?_⟩
    rw [layer_of_held tree working path path members holds] at bare
    have sets := files_set key name v names before after unmarked textual [(path, members)] base bare
    rw [newest?, List.foldl_cons, List.foldl_nil, Option.or_none] at sets
    rw [fromFile, if_pos there, layer_of_held tree working path path members holds]
    exact sets
  · cases bare

theorem directory_sets (directory : Text) (bare : fromDirectory tree working (before ++ after) directory = .ok base) :
    ∃ plain hidden, Finds tree working (Files.Path.join directory "bigo.toml".toList) plain ∧
      Finds tree working (Files.Path.join directory ".bigo/bigo.toml".toList) hidden ∧
      Sets key v ((last? key.part hidden).or (last? key.part plain)) base
        (fromDirectory tree working (before ++ (name, v) :: after) directory) := by
  rw [fromDirectory, sought_files] at bare
  have faultless := combine_faultless _ _ base bare
  obtain ⟨plain, findsPlain⟩ := finds_of_sought tree working (Files.Path.join directory "bigo.toml".toList)
    fun file member => faultless file (List.mem_append_left _ member)
  obtain ⟨hidden, findsHidden⟩ := finds_of_sought tree working (Files.Path.join directory ".bigo/bigo.toml".toList)
    fun file member => faultless file (List.mem_append_right _ member)
  obtain ⟨plainFiles, plainSought, plainNewest⟩ := newest_of_finds tree working _ key.part plain findsPlain
  obtain ⟨hiddenFiles, hiddenSought, hiddenNewest⟩ := newest_of_finds tree working _ key.part hidden findsHidden
  refine ⟨plain, hidden, findsPlain, findsHidden, ?_⟩
  rw [plainSought, hiddenSought, ← List.map_append] at bare
  have sets := files_set key name v names before after unmarked textual (plainFiles ++ hiddenFiles) base bare
  have newest : newest? key.part (plainFiles ++ hiddenFiles) none =
      (last? key.part hidden).or (last? key.part plain) := by
    calc newest? key.part (plainFiles ++ hiddenFiles) none
        = newest? key.part hiddenFiles (newest? key.part plainFiles none) := List.foldl_append
      _ = (last? key.part hidden).or (last? key.part plain) := by rw [hiddenNewest, plainNewest, Option.or_none]
  rw [newest, List.map_append, ← plainSought, ← hiddenSought, ← sought_files] at sets
  exact sets

/-- A variable for a text, over settings that load without it: they load exactly if its value reads as a
text, and then the setting is that text. All others stay as they are, but in a section that the newest file
gives as a list they are the defaults. A bare value reads as itself, if as a text at all, and does so if it
is wordy; and every text is what some value reads as. -/
theorem text_variable_sets :
    (∀ path, fromFile tree working (before ++ after) path = .ok base → ∃ members, Holds tree working path members ∧
      Sets key v (last? key.part members) base (fromFile tree working (before ++ (name, v) :: after) path)) ∧
    (∀ directory, fromDirectory tree working (before ++ after) directory = .ok base →
      ∃ plain hidden, Finds tree working (Files.Path.join directory "bigo.toml".toList) plain ∧
        Finds tree working (Files.Path.join directory ".bigo/bigo.toml".toList) hidden ∧
        Sets key v ((last? key.part hidden).or (last? key.part plain)) base
          (fromDirectory tree working (before ++ (name, v) :: after) directory)) ∧
    (BareValue v → ∀ t, ReadsAs v t → t = v) ∧ (WordyValue v → ReadsAs v v) ∧
    ∀ t, ∃ w, '\x00' ∉ w ∧ ReadsAs w t := by
  refine ⟨?_, ?_, fun bare t reads => bare_value v t bare reads, wordy_value v, fun t => ?_⟩
  · exact file_sets key textual name v names before after unmarked tree working base
  · exact directory_sets key textual name v names before after unmarked tree working base
  · exact ⟨inQuotes t, in_quotes_clear t, .text t (quoted_value t)⟩

end Sources

theorem Holds.unique (tree : Files.Tree) (working : Files.Place) (path : Text) (one other : List (Text × Value))
    (held : Holds tree working path one) (also : Holds tree working path other) : one = other := by
  obtain ⟨_, _, read, decoded, parsed⟩ := held
  obtain ⟨_, _, again, decodedAgain, parsedAgain⟩ := also
  obtain rfl := Except.ok.inj (read.symm.trans again)
  obtain rfl := Option.some.inj (decoded.symm.trans decodedAgain)
  exact Option.some.inj (parsed.symm.trans parsedAgain)

-- A file with a section that is a list.
def listDocument : Text :=
  "highlight = [\"rust\", false]\n[report]\ntitle = \"Rows\"\n".toList

def listMembers : List (Text × Value) :=
  [("highlight".toList, .list [.text "rust".toList, .flag false]),
    ("report".toList, .table [("title".toList, .text "Rows".toList)])]

def listSettings : Settings :=
  { highlight := { language := "rust".toList, enabled := false }
    report := { title := "Rows".toList } }

def languageVariable : Text :=
  "BIGO_HIGHLIGHT__LANGUAGE".toList

def titleVariable : Text :=
  "BIGO_REPORT__TITLE".toList

theorem language_named : Key.language.Names languageVariable := by
  decide

theorem title_named : Key.title.Names titleVariable := by
  decide

theorem none_unmarked : ∀ entry ∈ ([] ++ [] : List (Text × Text)),
    Text.after? variableMark (lowered entry.1) = none :=
  List.forall_mem_nil _

theorem list_parsed : Toml.parse? listDocument = some listMembers := by
  cbv

theorem list_held : Holds (treeOf listDocument) [] "bigo.toml".toList listMembers :=
  ⟨_, listDocument, tree_of_read _, Text.decode_strict_encode _, list_parsed⟩

theorem list_settings : fromFile (treeOf listDocument) [] [] "bigo.toml".toList = .ok listSettings := by
  have there := read_is_there _ _ _ _ (tree_of_read listDocument)
  rw [fromFile, if_pos there, layer_of_held _ _ _ _ _ list_held]
  exact combine_accepts [(_, _)] [] _ rfl

theorem signs_wordy : WordyValue "c++".toList where
  noQuote c first := by
    cases first
    decide
  starts c first := by
    cases first
    decide
  ends c last := by
    cases last
    decide
  noBracket c first := by
    cases first
    decide
  noSwitch := by decide
  noFloat := by decide
  noNumber := by decide

theorem language_over_list :
    fromFile (treeOf listDocument) [] [] "bigo.toml".toList = .ok listSettings ∧
      ∃ settings, fromFile (treeOf listDocument) [] [(languageVariable, "c++".toList)] "bigo.toml".toList =
          .ok settings ∧
        Key.language.valueIn settings = .text "c++".toList ∧ Key.enabled.valueIn settings = .flag true ∧
        Key.title.valueIn settings = .text "Rows".toList := by
  obtain ⟨fromOne, -, -, wordy, -⟩ := text_variable_sets .language (.inl rfl) languageVariable "c++".toList
    language_named [] [] none_unmarked (treeOf listDocument) [] listSettings
  obtain ⟨members, holds, sets⟩ := fromOne "bigo.toml".toList list_settings
  obtain rfl := Holds.unique _ _ _ _ _ holds list_held
  have reads := wordy signs_wordy
  obtain ⟨settings, loaded⟩ := sets.loads.mpr ⟨_, reads⟩
  refine ⟨list_settings, settings, loaded, sets.text settings _ loaded reads, ?_, ?_⟩
  · exact sets.replaced settings loaded .enabled (by decide) rfl _ rfl
  · exact sets.kept settings loaded .title (by decide) fun part => absurd part (by decide)

-- The setting is the value of the variable itself, and all others stay.
def SetsAsWritten (key : Key) (v : Text) (base : Settings) (loaded : Except LoadError Settings) : Prop :=
  ∃ settings, loaded = .ok settings ∧ key.valueIn settings = .text v ∧
    ∀ other, other ≠ key → other.valueIn settings = other.valueIn base

def emptyTree : Files.Tree :=
  .directory []

theorem empty_settings : fromDirectory emptyTree [] [] [] = .ok {} :=
  default_settings [] (List.forall_mem_nil _)

theorem title_over_nothing (v : Text) : ∃ given, Sets .title v given {}
    (fromDirectory emptyTree [] [(titleVariable, v)] []) := by
  obtain ⟨plain, hidden, -, -, sets⟩ := directory_sets .title (.inr rfl) titleVariable v title_named [] []
    none_unmarked emptyTree [] {} [] empty_settings
  exact ⟨_, sets⟩

theorem year_number : variableValue "2024".toList = .unsigned 2024 := by
  cbv

theorem blanks_trimmed : variableValue " a ".toList = .text ['a'] := by
  cbv

/-- A variable need not set a text as it is written: it may read as a number, margins are taken off, and of
a section that is a list nothing stays. -/
theorem not_as_written :
    (fromDirectory emptyTree [] [] [] = .ok {} ∧
      ¬ SetsAsWritten .title "2024".toList {}
        (fromDirectory emptyTree [] [(titleVariable, "2024".toList)] []) ∧
      ¬ SetsAsWritten .title " a ".toList {}
        (fromDirectory emptyTree [] [(titleVariable, " a ".toList)] [])) ∧
    fromFile (treeOf listDocument) [] [] "bigo.toml".toList = .ok listSettings ∧
      ¬ SetsAsWritten .language "c++".toList listSettings
        (fromFile (treeOf listDocument) [] [(languageVariable, "c++".toList)] "bigo.toml".toList) := by
  refine ⟨⟨empty_settings, ?_, ?_⟩, list_settings, ?_⟩
  · rintro ⟨settings, loaded, -⟩
    obtain ⟨given, sets⟩ := title_over_nothing "2024".toList
    obtain ⟨t, reads⟩ := sets.loads.mp ⟨settings, loaded⟩
    cases reads with
    | text t same => cases year_number.symm.trans same
    | character c same => cases year_number.symm.trans same
  · rintro ⟨settings, loaded, written, -⟩
    obtain ⟨given, sets⟩ := title_over_nothing " a ".toList
    have trimmed := sets.text settings ['a'] loaded (.text _ blanks_trimmed)
    cases written.symm.trans trimmed
  · rintro ⟨settings, loaded, -, stays⟩
    obtain ⟨members, holds, sets⟩ := file_sets .language (.inl rfl) languageVariable "c++".toList language_named [] []
      none_unmarked (treeOf listDocument) [] listSettings "bigo.toml".toList list_settings
    obtain rfl := Holds.unique _ _ _ _ _ holds list_held
    have default := sets.replaced settings loaded .enabled (by decide) rfl _ rfl
    cases (stays .enabled (by decide)).symm.trans default

end OrderOfGrowth.Settings
