import OrderOfGrowth.Format
import OrderOfGrowth.Proofs.Json.Printed
import OrderOfGrowth.Proofs.Text.Utf8
import Mathlib.Data.List.Nodup

/-!
The document of an analysis, decoded. The signals in it are found again whatever the order of their
names and whatever else stands beside them (`signals_rearranged`), and so are the narration and the
text that go with them (`of_rearranged`).
-/

set_option autoImplicit false

namespace OrderOfGrowth.Json

mutual

-- A value with the members of its objects in any order, and perhaps with members of other names.
def Rearranged : Json → Json → Prop
  | .object members, other =>
    ∃ found known unknown, other = .object found ∧ RearrangedMembers members known ∧
      (∀ member ∈ unknown, member.1 ∉ members.map Prod.fst) ∧ found.Perm (known ++ unknown)
  | value, other => other = value

def RearrangedMembers : List (Text × Json) → List (Text × Json) → Prop
  | [], known => known = []
  | (name, value) :: members, known =>
    ∃ other more, known = (name, other) :: more ∧ Rearranged value other ∧ RearrangedMembers members more

end

mutual

theorem rearranged_refl (value : Json) : Rearranged value value := by
  cases value with
  | object members =>
      exact ⟨members, members, [], rfl, rearranged_members_refl members, by simp, by simp⟩
  | _ => rfl

theorem rearranged_members_refl (members : List (Text × Json)) : RearrangedMembers members members := by
  cases members with
  | nil => rfl
  | cons member members =>
      obtain ⟨name, value⟩ := member
      exact ⟨value, members, rfl, rearranged_refl value, rearranged_members_refl members⟩

end

theorem rearranged_names (members known : List (Text × Json)) (rearranged : RearrangedMembers members known) :
    known.map Prod.fst = members.map Prod.fst := by
  induction members generalizing known with
  | nil => rw [RearrangedMembers] at rearranged; rw [rearranged]
  | cons member members ih =>
      obtain ⟨name, value⟩ := member
      obtain ⟨other, more, rfl, -, later⟩ := rearranged
      rw [List.map_cons, List.map_cons, ih more later]

theorem rearranged_reverse (members known unknown : List (Text × Json))
    (rearranged : RearrangedMembers members known) (apart : ∀ member ∈ unknown, member.1 ∉ members.map Prod.fst) :
    Rearranged (.object members) (.object (unknown ++ known.reverse)) := by
  refine ⟨_, known, unknown, rfl, rearranged, apart, ?_⟩
  exact (List.Perm.append_left unknown (List.reverse_perm known)).trans List.perm_append_comm

-- A name that is given one value only is found with it.
theorem lookup_only (name : Text) (value : Json) (members : List (Text × Json))
    (inside : (name, value) ∈ members) (only : ∀ other, (name, other) ∈ members → other = value) :
    members.lookup name = some value := by
  induction members with
  | nil => cases inside
  | cons member members ih =>
      obtain ⟨first, held⟩ := member
      by_cases same : first = name
      · subst same
        rw [List.lookup_cons_self, only held List.mem_cons_self]
      · have differ : (name == first) = false := beq_eq_false_iff_ne.mpr (Ne.symm same)
        rw [List.lookup_cons, differ]
        have later : (name, value) ∈ members := by
          rcases List.mem_cons.mp inside with here | later
          · exact absurd (congrArg Prod.fst here).symm same
          · exact later
        exact ih later fun other member => only other (List.mem_cons_of_mem _ member)

section

variable (members found known unknown : List (Text × Json))
variable (rearranged : RearrangedMembers members known) (distinct : (members.map Prod.fst).Nodup)
variable (apart : ∀ member ∈ unknown, member.1 ∉ members.map Prod.fst) (perm : found.Perm (known ++ unknown))

include rearranged distinct apart perm

theorem member_rearranged (name : Text) (value : Json) (inside : (name, value) ∈ known) :
    member? name found = some value := by
  have names := rearranged_names members known rearranged
  rw [← names] at distinct apart
  apply lookup_only name value
  · exact List.mem_reverse.mpr (perm.mem_iff.mpr (List.mem_append_left _ inside))
  · intro other member
    rcases List.mem_append.mp (perm.mem_iff.mp (List.mem_reverse.mp member)) with here | there
    · have same : (name, other) = (name, value) := List.inj_on_of_nodup_map distinct here inside rfl
      exact congrArg Prod.snd same
    · exact absurd (List.mem_map_of_mem inside) (apart (name, other) there)

theorem field_rearranged {α : Type} (name : Text) (value : Json) (read : Json → Except DecodeError α) (a : α)
    (inside : (name, value) ∈ known) (reads : read value = .ok a) : field found name read = .ok (some a) := by
  rw [field, member_rearranged members found known unknown rearranged distinct apart perm name value inside]
  exact congrArg (Except.map some) reads

end

theorem to_count_natural (n : Nat) : toCount (natural n) = .ok n := by
  have positive : ¬ (n : Int) < 0 := by omega
  rw [natural, toCount, if_neg positive, Int.natAbs_natCast]

def recursionNames : List Text :=
  ["function_name".toList, "call_count".toList]

def signalNames : List Text :=
  ["loop_count".toList, "loop_depth".toList, "recursion".toList, "is_binary_search".toList,
    "is_linear_search".toList]

theorem recursion_rearranged (recursion : Scan.Recursion) (other : Json)
    (rearranged : Rearranged (ofRecursion recursion) other) : toRecursion other = .ok recursion := by
  obtain ⟨found, known, unknown, rfl, fields, apart, perm⟩ := rearranged
  have distinct : recursionNames.Nodup := by decide
  have reads {α : Type} (name : Text) (value : Json) (read : Json → Except DecodeError α) (a : α) :=
    field_rearranged _ found known unknown fields distinct apart perm name value read a
  obtain ⟨_, _, rfl, rfl, _, _, rfl, rfl, rfl⟩ := fields
  have count := reads "call_count".toList (natural recursion.callCount) toCount _ (by simp)
    (to_count_natural recursion.callCount)
  have name := reads "function_name".toList (.string recursion.functionName) toName _ (by simp) rfl
  rw [toRecursion, count, name]
  rfl

theorem optional_rearranged (recursion : Option Scan.Recursion) (other : Json)
    (rearranged : Rearranged ((recursion.map ofRecursion).getD .null) other) :
    toRecursion? other = .ok recursion := by
  cases recursion with
  | none =>
      obtain rfl : other = .null := rearranged
      rfl
  | some recursion =>
      have reads := recursion_rearranged recursion other rearranged
      obtain ⟨found, known, unknown, rfl, -⟩ := rearranged
      exact congrArg (Except.map some) reads

theorem signals_rearranged (signals : Signals) (other : Json)
    (rearranged : Rearranged (ofSignals signals) other) : toSignals other = .ok signals := by
  obtain ⟨found, known, unknown, rfl, fields, apart, perm⟩ := rearranged
  have distinct : signalNames.Nodup := by decide
  have reads {α : Type} (name : Text) (value : Json) (read : Json → Except DecodeError α) (a : α) :=
    field_rearranged _ found known unknown fields distinct apart perm name value read a
  obtain ⟨_, _, rfl, rfl, _, _, rfl, rfl, nested, _, rfl, shape, _, _, rfl, rfl, _, _, rfl, rfl, rfl⟩ := fields
  have binary := reads "is_binary_search".toList (.bool signals.isBinarySearch) toSwitch _ (by simp) rfl
  have linear := reads "is_linear_search".toList (.bool signals.isLinearSearch) toSwitch _ (by simp) rfl
  have count := reads "loop_count".toList (natural signals.loopCount) toCount _ (by simp)
    (to_count_natural signals.loopCount)
  have depth := reads "loop_depth".toList (natural signals.loopDepth) toCount _ (by simp)
    (to_count_natural signals.loopDepth)
  have recursion := reads "recursion".toList nested toRecursion? _ (by simp)
    (optional_rearranged signals.recursion nested shape)
  rw [toSignals, binary, linear, count, depth, recursion]
  rfl

def toLine? : Json → Option Line
  | .object members => do
    let text ← member? "text".toList members
    let opens ← member? "section_break".toList members
    pure ⟨← (toName text).toOption, ← (toSwitch opens).toOption⟩
  | _ => none

def toLines? : Json → Option (List Line)
  | .array items => items.mapM toLine?
  | _ => none

theorem to_line_json (line : Line) : toLine? (Analysis.lineJson line) = some line := by
  have text : member? "text".toList [("text".toList, .string line.text),
      ("section_break".toList, .bool line.opensSection)] = some (.string line.text) := rfl
  have opens : member? "section_break".toList [("text".toList, .string line.text),
      ("section_break".toList, .bool line.opensSection)] = some (.bool line.opensSection) := rfl
  rw [Analysis.lineJson, toLine?, text, opens]
  rfl

theorem to_lines_json (lines : List Line) : toLines? (.array (lines.map Analysis.lineJson)) = some lines := by
  rw [toLines?, List.mapM_map]
  induction lines with
  | nil => rfl
  | cons line lines ih =>
      rw [List.mapM_cons, Function.comp_apply, to_line_json, ih]
      rfl

theorem exact_lines (lines : List Line) : ExactItems (lines.map Analysis.lineJson) := by
  induction lines with
  | nil => trivial
  | cons line lines ih => exact ⟨⟨trivial, trivial, trivial⟩, ih⟩

end OrderOfGrowth.Json

namespace OrderOfGrowth

open Json (Rearranged)

-- Counts that fit a word of 64 bits, and still fit when one is added.
structure Signals.FitWords (signals : Signals) : Prop where
  loopCount : signals.loopCount + 1 < Number.wordBound
  loopDepth : signals.loopDepth + 1 < Number.wordBound
  callCount : ∀ recursion ∈ signals.recursion, recursion.callCount + 1 < Number.wordBound

theorem Json.exact_natural (n : Nat) (fits : n + 1 < Number.wordBound) : Json.Exact (Json.natural n) := by
  constructor <;> omega

theorem Json.exact_signals (signals : Signals) (fits : signals.FitWords) : Json.Exact (Json.ofSignals signals) := by
  have recursion : Json.Exact ((signals.recursion.map Json.ofRecursion).getD .null) := by
    cases found : signals.recursion with
    | none => trivial
    | some recursion => exact ⟨trivial, exact_natural _ (fits.callCount recursion found), trivial⟩
  exact ⟨exact_natural _ fits.loopCount, exact_natural _ fits.loopDepth, recursion, trivial, trivial, trivial⟩

-- What a document holds, each part found by its name.
structure Document where
  signals : Signals
  lines : List Line
  text : Text

namespace Document

def ofSignals (signals : Signals) : Document where
  signals := signals
  lines := Narration.ofSignals signals
  text := Narration.toText (Narration.ofSignals signals)

def ofJson? : Json → Option Document
  | .object members => do
    let signals ← Json.member? "signals".toList members
    let lines ← Json.member? "narration".toList members
    let text ← Json.member? "text".toList members
    pure ⟨← (Json.toSignals signals).toOption, ← Json.toLines? lines, ← (Json.toName text).toOption⟩
  | _ => none

def names : List Text :=
  ["signals".toList, "narration".toList, "text".toList]

theorem of_rearranged (signals : Signals) (other : Json)
    (rearranged : Rearranged (Analysis.narrated signals).toJson other) :
    ofJson? other = some (ofSignals signals) := by
  obtain ⟨found, known, unknown, rfl, fields, apart, perm⟩ := rearranged
  have distinct : names.Nodup := by decide
  have reads := Json.member_rearranged _ found known unknown fields distinct apart perm
  obtain ⟨inner, _, rfl, shape, _, _, rfl, rfl, _, _, rfl, rfl, rfl⟩ := fields
  have decoded := Json.signals_rearranged signals inner shape
  have lines := Json.to_lines_json (Narration.ofSignals signals)
  rw [ofJson?, reads "signals".toList inner (.head _), reads "narration".toList _ (.tail _ (.head _)),
    reads "text".toList _ (.tail _ (.tail _ (.head _)))]
  simp only [Option.bind_eq_bind, Option.bind_some, decoded, lines]
  rfl

end Document

section

variable (signals : Signals) (fits : signals.FitWords)

include fits

theorem Json.exact_document : Json.Exact (Analysis.narrated signals).toJson :=
  ⟨exact_signals signals fits, exact_lines (Narration.ofSignals signals), trivial, trivial⟩

theorem Json.document_parsed :
    Json.parse? (Analysis.narrated signals).toJson.pretty = some (Analysis.narrated signals).toJson := by
  have read := parse_pretty _ (exact_document signals fits) [] (by simp)
  rwa [List.append_nil] at read

/-- What is written of an analysis is one document and a line end, and it holds the signals. From any
document with these members, in whatever order and whatever else there is, the same signals are
decoded, with their narration and its text: narrating them again gives nothing new. -/
theorem document_decodes (colored : Bool) :
    ∃ document decoded,
      Text.decodeStrict? (Text.encode (Analysis.write .json colored (.narrated signals))) =
        some (document ++ ['\n']) ∧
      Json.parse? document = some (Analysis.narrated signals).toJson ∧
      Document.ofJson? (Analysis.narrated signals).toJson = some decoded ∧
      (∀ other, Rearranged (Analysis.narrated signals).toJson other →
        Document.ofJson? other = some decoded) ∧
      decoded.signals = signals ∧ decoded.lines = Narration.ofSignals signals ∧
      decoded.text = Narration.toText (Narration.ofSignals signals) ∧
      decoded.lines = Narration.ofSignals decoded.signals ∧
      decoded.text = Narration.toText decoded.lines := by
  have any := Document.of_rearranged signals
  have itself := any _ (Json.rearranged_refl _)
  refine ⟨(Analysis.narrated signals).toJson.pretty, Document.ofSignals signals, ?_, ?_, itself, any, ?_⟩
  · exact Text.decode_strict_encode _
  · exact Json.document_parsed signals fits
  · exact ⟨rfl, rfl, rfl, rfl, rfl⟩

end

def oddSignals : Signals where
  loopCount := 18446744073709551614
  loopDepth := 18446744073709551614
  recursion := some ⟨"f\"\\\n\x01é🔍".toList, 18446744073709551614⟩
  isBinarySearch := false
  isLinearSearch := false

def oddRecursion : List (Text × Json) :=
  [("function_name".toList, .string "f\"\\\n\x01é🔍".toList), ("call_count".toList, .natural 18446744073709551614)]

-- The signals with the names in each object turned round, and with notes on the recursion.
def oddMembers : List (Text × Json) :=
  [("loop_count".toList, .natural 18446744073709551614), ("loop_depth".toList, .natural 18446744073709551614),
    ("recursion".toList, .object (("notes".toList, .array [.null]) :: oddRecursion.reverse)),
    ("is_binary_search".toList, .bool false), ("is_linear_search".toList, .bool false)]

def oddDocument : Json :=
  .object [("version".toList, .natural 2),
    ("text".toList, .string (Narration.toText (Narration.ofSignals oddSignals))),
    ("narration".toList, .array ((Narration.ofSignals oddSignals).map Analysis.lineJson)),
    ("signals".toList, .object oddMembers.reverse)]

theorem odd_document_rearranged : Rearranged (Analysis.narrated oddSignals).toJson oddDocument := by
  have recursion : Rearranged (.object oddRecursion)
      (.object (("notes".toList, .array [.null]) :: oddRecursion.reverse)) := by
    apply Json.rearranged_reverse oddRecursion oddRecursion [("notes".toList, .array [.null])]
    · exact Json.rearranged_members_refl oddRecursion
    · simp only [List.mem_singleton, forall_eq]
      decide
  have signals : Rearranged (Json.ofSignals oddSignals) (.object oddMembers.reverse) := by
    apply Json.rearranged_reverse _ oddMembers []
    · exact ⟨_, _, rfl, rfl, _, _, rfl, rfl, _, _, rfl, recursion, _, _, rfl, rfl, _, _, rfl, rfl, rfl⟩
    · simp
  apply Json.rearranged_reverse _ [("signals".toList, .object oddMembers.reverse), _, _]
    [("version".toList, .natural 2)]
  · exact ⟨_, _, rfl, signals, _, _, rfl, rfl, _, _, rfl, rfl, rfl⟩
  · simp only [List.mem_singleton, forall_eq]
    decide

theorem odd_signals_decode : oddSignals.FitWords ∧
    (∃ document, Text.decodeStrict? (Text.encode (Analysis.write .json true (.narrated oddSignals))) =
        some (document ++ ['\n']) ∧
      Json.parse? document = some (Analysis.narrated oddSignals).toJson) ∧
    ∃ decoded, Document.ofJson? oddDocument = some decoded ∧ decoded.signals = oddSignals ∧
      decoded.lines = Narration.ofSignals decoded.signals ∧ decoded.text = Narration.toText decoded.lines := by
  have fits : oddSignals.FitWords := by
    constructor
    · decide
    · decide
    · rintro recursion ⟨rfl⟩
      decide
  obtain ⟨document, decoded, written, read, -, any, same, -, -, lines, text⟩ := document_decodes oddSignals fits true
  exact ⟨fits, ⟨document, written, read⟩, decoded, any oddDocument odd_document_rearranged, same, lines, text⟩

end OrderOfGrowth
