import OrderOfGrowth.Proofs.Settings.Layer
import OrderOfGrowth.Settings.Reading
import Mathlib.Tactic.Choose

/-!
Settings one by one. A section is read by what it says of each of its settings (`section_reads`), and
merged layers by what their sections say (`read_iff`); values that are accepted one by one make up
settings (`settings_of_parts`).
-/

set_option autoImplicit false

namespace OrderOfGrowth.Settings

inductive Key where
  | format
  | color
  | language
  | enabled
  | title
  deriving DecidableEq, Repr

namespace Key

def part : Key → Text
  | .format | .color => "output".toList
  | .language | .enabled => "highlight".toList
  | .title => "report".toList

def name : Key → Text
  | .format => "format".toList
  | .color => "color".toList
  | .language => "language".toList
  | .enabled => "enabled".toList
  | .title => "title".toList

def valueIn (settings : Settings) : Key → Value
  | .format => .text settings.output.format.name
  | .color => .flag settings.output.color
  | .language => .text settings.highlight.language
  | .enabled => .flag settings.highlight.enabled
  | .title => .text settings.report.title

-- What a value is as a setting, if it is accepted for it.
def accepted? : Key → Value → Option Value
  | .format, .text s =>
    if s = "text".toList ∨ s = "json".toList ∨ s = "markdown".toList then some (.text s) else none
  | .color, .flag b => some (.flag b)
  | .enabled, .flag b => some (.flag b)
  | .language, .text s => some (.text s)
  | .language, .character c => some (.text [c])
  | .title, .text s => some (.text s)
  | .title, .character c => some (.text [c])
  | _, _ => none

-- The place of a setting in a section that is a list.
def place : Key → Nat
  | .format | .language | .title => 0
  | .color | .enabled => 1

-- What is found for a setting, read as that. Where nothing is found it is the default.
def read? (key : Key) : Option Layered → Option Value
  | none => some (key.valueIn {})
  | some (.leaf _ value) => key.accepted? value
  | some (.table _ _) => none

-- What a section says of a setting: a table by its name, a list by its place.
def settled? (key : Key) : Option Layered → Option Value
  | none => key.read? none
  | some (.table _ members) => key.read? (members.lookup key.name)
  | some (.leaf source (.list items)) => key.read? (items[key.place]?.map (Layered.ofValue source))
  | some (.leaf _ _) => none

end Key

theorem bind_ok_iff {α β : Type} (x : Read α) (f : α → Read β) (result : β) :
    (x >>= f) = .ok result ↔ ∃ found, x = .ok found ∧ f found = .ok result := by
  cases x with
  | error reason =>
      constructor
      · intro none
        cases none
      · rintro ⟨_, none, _⟩
        cases none
  | ok found =>
      constructor
      · intro same
        exact ⟨found, rfl, same⟩
      · rintro ⟨_, same, rest⟩
        cases same
        exact rest

def readFound {α : Type} (read : List Text → Layered → Read α) (path : List Text) (default : α) :
    Option Layered → Read α
  | some value => read path value
  | none => .ok default

theorem read_member_found {α : Type} (read : List Text → Layered → Read α) (path : List Text) (name : Text)
    (default : α) (members : List (Text × Layered)) :
    readMember read path name default members =
      readFound read (path ++ [name]) default (members.lookup name) := by
  unfold readMember readFound
  cases members.lookup name <;> rfl

section Tables

variable (path : List Text) (source : Source) (members : List (Text × Layered))

theorem read_switch_table (b : Bool) : readSwitch path (.table source members) ≠ .ok b := by
  intro same
  cases same

theorem read_text_table (s : Text) : readText path (.table source members) ≠ .ok s := by
  intro same
  cases same

theorem read_format_table (format : Format) : readFormat path (.table source members) ≠ .ok format := by
  unfold readFormat
  split
  · rename_i same
    cases same
  · intro same
    obtain ⟨_, _, refused⟩ := (bind_ok_iff _ _ _).mp same
    cases refused
  · intro same
    cases same
  · intro same
    cases same

end Tables

theorem ok_inj {α : Type} (found wanted : α) : (pure found : Read α) = .ok wanted ↔ found = wanted :=
  ⟨fun same => Except.ok.inj same, fun same => congrArg Except.ok same⟩

theorem format_of_name (s : Text) (format : Format) : Format.ofName? s = some format ↔ s = format.name := by
  constructor
  · intro found
    have named := List.find?_some found
    exact (beq_iff_eq.mp named).symm
  · rintro rfl
    cases format <;> rfl

theorem format_accepted (s : Text) (format : Format) :
    Key.format.accepted? (.text s) = some (.text format.name) ↔ s = format.name := by
  rw [Key.accepted?]
  constructor
  · intro accepted
    split at accepted
    · cases accepted
      rfl
    · cases accepted
  · rintro rfl
    cases format <;> rfl

section Found

variable (path : List Text) (found : Option Layered)

theorem read_switch_found (key : Key) (switch : key = .color ∨ key = .enabled) (b : Bool) :
    readFound readSwitch path true found = .ok b ↔ key.read? found = some (.flag b) := by
  cases found with
  | none => rcases switch with rfl | rfl <;> simp [readFound, Key.read?, Key.valueIn]
  | some layer =>
      cases layer with
      | leaf source value =>
          rcases switch with rfl | rfl
          all_goals cases value <;> simp [readFound, readSwitch, refuse, Key.read?, Key.accepted?]
      | table source members => simp [readFound, read_switch_table, Key.read?]

theorem read_text_found (key : Key) (text : key = .language ∨ key = .title) (default : Text)
    (unset : key.valueIn {} = .text default) (s : Text) :
    readFound readText path default found = .ok s ↔ key.read? found = some (.text s) := by
  cases found with
  | none =>
      change Except.ok default = .ok s ↔ some (key.valueIn {}) = some (.text s)
      simp only [unset, Except.ok.injEq, Option.some.injEq, Value.text.injEq]
  | some layer =>
      cases layer with
      | leaf source value =>
          rcases text with rfl | rfl
          all_goals cases value <;> simp [readFound, readText, refuse, Key.read?, Key.accepted?]
      | table source members => simp [readFound, read_text_table, Key.read?]

theorem read_format_found (format : Format) :
    readFound readFormat path .text found = .ok format ↔ Key.format.read? found = some (.text format.name) := by
  cases found with
  | none =>
      change Except.ok Format.text = .ok format ↔ some (Value.text Format.text.name) = some (.text format.name)
      rw [Except.ok.injEq, Option.some.injEq, Value.text.injEq, ← format_of_name]
      exact (Option.some.injEq Format.text format).symm ▸ Iff.rfl
  | some layer =>
      cases layer with
      | leaf source value =>
          rw [readFound, Key.read?]
          cases value with
          | text s =>
              rw [format_accepted, ← format_of_name, readFormat, readFormatName]
              cases Format.ofName? s <;> simp
          | _ => simp [readFormat, refuse, Key.accepted?]
      | table source members => simp [readFound, read_format_table, Key.read?]

end Found

theorem read_item_found {α : Type} (read : List Text → Layered → Read α) (path : List Text) (index : Nat)
    (default : α) (source : Source) (items : List Value) :
    readItem read path index default source items =
      readFound read (path ++ [Text.decimal index]) default (items[index]?.map (Layered.ofValue source)) := by
  unfold readItem readFound
  cases items[index]? <;> rfl

-- What settings hold is accepted as it is.
theorem accepted_own (key : Key) (settings : Settings) :
    key.accepted? (key.valueIn settings) = some (key.valueIn settings) := by
  cases key with
  | format => exact (format_accepted _ _).mpr rfl
  | _ => rfl

-- A section is read by what it says of its settings: in a table each has its name, in a list its place.
theorem section_reads {α : Type} (wanted : Wanted) (ofMembers : List Text → List (Text × Layered) → Read α)
    (ofItems : List Text → Source → List Value → Read α) (path : List Text) (default made : α) (settings : Settings)
    (keys : List Key) (any : keys ≠ []) (bare : ofMembers path [] = .ok default)
    (byName : ∀ members, ofMembers path members = .ok made ↔
      ∀ key ∈ keys, key.read? (members.lookup key.name) = some (key.valueIn settings))
    (byPlace : ∀ source items, ofItems path source items = .ok made ↔
      ∀ key ∈ keys, key.read? (items[key.place]?.map (Layered.ofValue source)) = some (key.valueIn settings))
    (found : Option Layered) :
    readFound (readSection wanted ofMembers ofItems) path default found = .ok made ↔
      ∀ key ∈ keys, key.settled? found = some (key.valueIn settings) := by
  cases found with
  | none =>
      rw [readFound, ← bare]
      exact byName []
  | some layer =>
      cases layer with
      | table source members => exact byName members
      | leaf source value =>
          cases value with
          | list items => exact byPlace source items
          | _ =>
              -- Neither a table nor a list: the section is refused, and settles nothing.
              obtain ⟨key, member⟩ := List.exists_mem_of_ne_nil keys any
              refine iff_of_false (fun accepted => ?_) fun settled => ?_
              · cases accepted
              · cases settled key member

theorem two_keys_iff (one other : Key) (holds : Key → Prop) :
    (∀ key ∈ [one, other], holds key) ↔ holds one ∧ holds other := by
  rw [List.forall_mem_cons, List.forall_mem_singleton]

-- Two settings that are read one behind the other are the parts of what is made of them.
theorem two_read_iff {α β γ : Type} (one : Read α) (other : Read β) (make : α → β → γ) (first : γ → α)
    (second : γ → β) (parts : ∀ a b made, make a b = made ↔ a = first made ∧ b = second made) (made : γ) :
    (do let a ← one; let b ← other; pure (make a b)) = .ok made ↔
      one = .ok (first made) ∧ other = .ok (second made) := by
  simp only [bind_ok_iff, ok_inj, parts]
  constructor
  · rintro ⟨_, oneRead, _, otherRead, rfl, rfl⟩
    exact ⟨oneRead, otherRead⟩
  · rintro ⟨oneRead, otherRead⟩
    exact ⟨_, oneRead, _, otherRead, rfl, rfl⟩

-- A section of a switch and another setting. In a list the switch is the second of them.
theorem switch_section_reads {α β : Type} (wanted : Wanted) (make : β → Bool → α) (first : α → β) (switch : α → Bool)
    (parts : ∀ a b made, make a b = made ↔ a = first made ∧ b = switch made)
    (read : List Text → Layered → Read β) (default : β) (key switchKey : Key) (settings : Settings) (made : α)
    (places : key.place = 0 ∧ switchKey.place = 1)
    (reads : ∀ path found, readFound read path default found = .ok (first made) ↔
      key.read? found = some (key.valueIn settings))
    (switches : ∀ path found, readFound readSwitch path true found = .ok (switch made) ↔
      switchKey.read? found = some (switchKey.valueIn settings))
    (path : List Text) (found : Option Layered) :
    readFound
        (readSection wanted
          (fun path members => do
            let b ← readMember readSwitch path switchKey.name true members
            let a ← readMember read path key.name default members
            pure (make a b))
          (fun path source items => do
            let a ← readItem read path 0 default source items
            let b ← readItem readSwitch path 1 true source items
            pure (make a b)))
        path (make default true) found = .ok made ↔
      ∀ own ∈ [switchKey, key], own.settled? found = some (own.valueIn settings) := by
  apply section_reads _ _ _ _ _ _ _ _ (List.cons_ne_nil _ _) rfl
  · intro members
    have swapped (b : Bool) (a : β) (made : α) : flip make b a = made ↔ b = switch made ∧ a = first made :=
      (parts a b made).trans and_comm
    simp only [read_member_found, two_keys_iff]
    exact (two_read_iff _ _ (flip make) switch first swapped _).trans
      (and_congr (switches _ _) (reads _ _))
  · intro source items
    simp only [read_item_found, two_keys_iff, places]
    exact (two_read_iff _ _ make first switch parts _).trans
      (and_comm.trans (and_congr (switches _ _) (reads _ _)))

section Sections

variable (settings : Settings) (found : Option Layered)

theorem output_reads : readFound readOutput ["output".toList] {} found = .ok settings.output ↔
    ∀ key ∈ [Key.color, .format], key.settled? found = some (key.valueIn settings) := by
  apply switch_section_reads .outputSection OutputSettings.mk OutputSettings.format OutputSettings.color
    _ readFormat .text .format .color settings settings.output ⟨rfl, rfl⟩
  · exact fun path found => read_format_found path found _
  · exact fun path found => read_switch_found path found .color (.inl rfl) _
  · rintro format color ⟨⟩
    simp

theorem highlight_reads : readFound readHighlight ["highlight".toList] {} found = .ok settings.highlight ↔
    ∀ key ∈ [Key.enabled, .language], key.settled? found = some (key.valueIn settings) := by
  apply switch_section_reads .highlightSection HighlightSettings.mk HighlightSettings.language
    HighlightSettings.enabled _ readText ['c'] .language .enabled settings settings.highlight ⟨rfl, rfl⟩
  · exact fun path found => read_text_found path found .language (.inl rfl) _ rfl _
  · exact fun path found => read_switch_found path found .enabled (.inr rfl) _
  · rintro language enabled ⟨⟩
    simp

theorem report_reads : readFound readReport ["report".toList] {} found = .ok settings.report ↔
    ∀ key ∈ [Key.title], key.settled? found = some (key.valueIn settings) := by
  have made (title : Read Text) : (do let title ← title; pure (ReportSettings.mk title)) = .ok settings.report ↔
      title = .ok settings.report.title := by
    simp only [bind_ok_iff, ok_inj]
    constructor
    · rintro ⟨title, titleRead, same⟩
      rw [titleRead, ← same]
    · intro titleRead
      exact ⟨_, titleRead, rfl⟩
  apply section_reads _ _ _ _ _ _ _ _ (List.cons_ne_nil _ _) rfl
  · intro members
    simp only [read_member_found, List.forall_mem_singleton]
    exact (made _).trans (read_text_found _ _ .title (.inr rfl) _ rfl _)
  · intro source items
    simp only [read_item_found, List.forall_mem_singleton]
    exact (made _).trans (read_text_found _ _ .title (.inr rfl) _ rfl _)

end Sections

theorem read_iff (source : Source) (members : List (Text × Layered)) (settings : Settings) :
    read (.table source members) = .ok settings ↔
      ∀ key : Key, key.settled? (members.lookup key.part) = some (key.valueIn settings) := by
  simp only [read, read_member_found, bind_ok_iff, ok_inj]
  constructor
  · rintro ⟨highlight, highlightRead, output, outputRead, report, reportRead, rfl⟩ key
    have highlights := (highlight_reads ⟨output, highlight, report⟩ _).mp highlightRead
    have outputs := (output_reads ⟨output, highlight, report⟩ _).mp outputRead
    have reports := (report_reads ⟨output, highlight, report⟩ _).mp reportRead
    cases key with
    | enabled | language => exact highlights _ (by simp)
    | color | format => exact outputs _ (by simp)
    | title => exact reports _ (by simp)
  · intro settled
    refine ⟨_, (highlight_reads settings _).mpr ?_, _, (output_reads settings _).mpr ?_, _,
      (report_reads settings _).mpr ?_, rfl⟩
    · exact (two_keys_iff _ _ _).mpr ⟨settled .enabled, settled .language⟩
    · exact (two_keys_iff _ _ _).mpr ⟨settled .color, settled .format⟩
    · exact List.forall_mem_singleton.mpr (settled .title)

theorem format_named (s : Text) (named : s = "text".toList ∨ s = "json".toList ∨ s = "markdown".toList) :
    ∃ format : Format, s = format.name := by
  rcases named with rfl | rfl | rfl
  · exact ⟨.text, rfl⟩
  · exact ⟨.json, rfl⟩
  · exact ⟨.markdown, rfl⟩

theorem accepted_in_settings (key : Key) (value result : Value) (accepted : key.accepted? value = some result) :
    ∃ settings, result = key.valueIn settings := by
  cases key with
  | format =>
      cases value with
      | text s =>
          rw [Key.accepted?] at accepted
          split at accepted
          · rename_i named
            cases accepted
            obtain ⟨format, rfl⟩ := format_named s named
            exact ⟨{ output := { format } }, rfl⟩
          · cases accepted
      | _ => cases accepted
  | color =>
      cases value with
      | flag color => cases accepted; exact ⟨{ output := { color } }, rfl⟩
      | _ => cases accepted
  | language =>
      cases value with
      | text language => cases accepted; exact ⟨{ highlight := { language } }, rfl⟩
      | character c => cases accepted; exact ⟨{ highlight := { language := [c] } }, rfl⟩
      | _ => cases accepted
  | enabled =>
      cases value with
      | flag enabled => cases accepted; exact ⟨{ highlight := { enabled } }, rfl⟩
      | _ => cases accepted
  | title =>
      cases value with
      | text title => cases accepted; exact ⟨{ report := { title } }, rfl⟩
      | character c => cases accepted; exact ⟨{ report := { title := [c] } }, rfl⟩
      | _ => cases accepted

-- What settings may hold one by one, one of them can hold all at once.
theorem settings_of_parts (result : Key → Value) (each : ∀ key : Key, ∃ settings, result key = key.valueIn settings) :
    ∃ settings, ∀ key : Key, result key = key.valueIn settings := by
  choose part same using each
  refine ⟨{ output := ⟨(part .format).output.format, (part .color).output.color⟩
            highlight := ⟨(part .language).highlight.language, (part .enabled).highlight.enabled⟩
            report := ⟨(part .title).report.title⟩ }, ?_⟩
  intro key
  rw [same key]
  cases key <;> rfl

-- Values that are there for all settings, and that settings may hold, make up settings.
theorem settings_of_found (found : Key → Option Value)
    (each : ∀ key result, found key = some result → ∃ settings, result = key.valueIn settings) :
    (∃ settings, ∀ key : Key, found key = some (key.valueIn settings)) ↔ ∀ key, (found key).isSome = true := by
  constructor
  · rintro ⟨settings, all⟩ key
    rw [all key]
    rfl
  · intro all
    choose result present using fun key => Option.isSome_iff_exists.mp (all key)
    obtain ⟨settings, same⟩ := settings_of_parts result fun key => each key _ (present key)
    exact ⟨settings, fun key => by rw [present key, same key]⟩

theorem settings_of_accepted (winning : Key → Value) :
    (∃ settings, ∀ key : Key, key.accepted? (winning key) = some (key.valueIn settings)) ↔
      ∀ key : Key, (key.accepted? (winning key)).isSome = true :=
  settings_of_found (fun key => key.accepted? (winning key)) fun key result =>
    accepted_in_settings key (winning key) result

theorem settled_in_settings (key : Key) (found : Option Layered) (result : Value)
    (settled : key.settled? found = some result) : ∃ settings, result = key.valueIn settings := by
  have read (found : Option Layered) (here : key.read? found = some result) :
      ∃ settings, result = key.valueIn settings := by
    cases found with
    | none => exact ⟨{}, (Option.some.inj here).symm⟩
    | some layer =>
        cases layer with
        | leaf source value => exact accepted_in_settings key value result here
        | table source members => cases here
  cases found with
  | none => exact read none settled
  | some layer =>
      cases layer with
      | table source members => exact read _ settled
      | leaf source value =>
          cases value with
          | list items => exact read _ settled
          | _ => cases settled

end OrderOfGrowth.Settings
