import OrderOfGrowth.Proofs.Number.Logarithm
import OrderOfGrowth.Narration
import Mathlib

/-!
What a narration tells, read off the lines that start with a mark, wherever they stand. Consistent
signals are told with one verdict on loops, if there are any (`loop_verdict`), and a recursion of at least
two calls with one case of the master theorem and a proper exponent (`derivation`).
-/

set_option autoImplicit false

namespace OrderOfGrowth

-- What the scans of one source cannot contradict: the branches of a narration that are for other
-- signals are never taken.
structure Signals.Consistent (signals : Signals) : Prop where
  depth : signals.loopDepth ≤ signals.loopCount
  depthZero : signals.loopDepth = 0 ↔ signals.loopCount = 0
  recursion : ∀ recursion, signals.recursion = some recursion →
    recursion.functionName ≠ [] ∧ (∀ c ∈ recursion.functionName, Text.isNameChar c = true) ∧
      2 ≤ recursion.callCount

namespace Narration

open Text (decimal)

-- What the lines that start with a mark go on to say, in order.
def told (mark : Text) (lines : List Line) : List Text :=
  lines.filterMap fun line => Text.after? mark line.text

theorem told_append (mark : Text) (front back : List Line) :
    told mark (front ++ back) = told mark front ++ told mark back :=
  List.filterMap_append

def timeMark : Text :=
  "➡️ Time Complexity: ".toList

def formulaMark : Text :=
  "T(n) = C1 + C2·n + ... + C".toList

def powerMark : Text :=
  "Step 2: log_b(a) = log_2(".toList

def comparisonMark : Text :=
  "Step 3: Compare f(n) = Θ(n) to n^log_b(a) = Θ(n^".toList

def caseMark : Text :=
  "→ Case ".toList

def polynomial (degree : Nat) : Text :=
  "O(n^".toList ++ decimal degree ++ ")".toList

-- The one verdict on the loops of the signals, as it stands in a narration.
structure LoopVerdict (signals : Signals) (lines : List Line) (verdict : Text) : Prop where
  only : told timeMark lines = [verdict]
  logarithmic : verdict = "O(log n)".toList ↔ signals.isBinarySearch = true
  linear : verdict = "O(n)".toList ↔
    signals.isBinarySearch = false ∧ (signals.isLinearSearch = true ∨ signals.loopDepth = 1)
  quadratic : verdict = "O(n²)".toList ↔
    signals.isBinarySearch = false ∧ signals.isLinearSearch = false ∧ signals.loopDepth = 2
  deeper : signals.isBinarySearch = false → signals.isLinearSearch = false → 3 ≤ signals.loopDepth →
    verdict = polynomial signals.loopDepth ∧
      told formulaMark lines =
        [decimal (signals.loopDepth + 1) ++ "·n^".toList ++ decimal signals.loopDepth]
  neverConstant : verdict ≠ "O(n^0)".toList

-- The derivation for a recursion, as it stands in a narration, with the exponent that it arrives at.
structure Derivation (recursion : Scan.Recursion) (lines : List Line) (exponent : Text) : Prop where
  power : told powerMark lines = [decimal recursion.callCount ++ ") = ".toList ++ exponent]
  comparison : told comparisonMark lines = [exponent ++ ")".toList]
  proper : exponent ≠ "-inf".toList ∧ exponent ≠ "0.00".toList
  balanced : told caseMark lines = ["2: f(n) = Θ(n^log_b(a)) ⇒ T(n) = Θ(n log n)".toList] ↔
    recursion.callCount = 2
  steep : told caseMark lines = ["1: T(n) = Θ(n^".toList ++ exponent ++ ")".toList] ↔
    3 ≤ recursion.callCount

theorem told_unlike (mark : Text) (lines : List Line) (marked : mark ≠ [])
    (unlike : ∀ line ∈ lines, line.text.head? ≠ mark.head?) : told mark lines = [] := by
  rw [told, List.filterMap_eq_nil_iff]
  intro line member
  have starts := unlike line member
  cases mark with
  | nil => exact absurd rfl marked
  | cons c mark =>
      cases text : line.text with
      | nil => rfl
      | cons d rest =>
          have differ : c ≠ d := by
            rintro rfl
            exact starts (by rw [text]; rfl)
          rw [Text.after?, if_neg differ]

theorem loop_line_starts (signals : Signals) :
    ∀ line ∈ loopLines signals, line.text.head? ∈ [some '❌', some '➡', some '🔎', some 'T'] := by
  unfold loopLines loopVerdict nestingVerdict
  split_ifs <;> simp [Line.plain, Line.opening]

section Parts

variable (mark : Text) (signals : Signals)

-- A mark of which only the lines on loops can speak.
theorem told_loops (opening : told mark [.plain "🔍 Code Analysis Started".toList] = [])
    (recursion : ∀ recursion, told mark (recursionLines recursion) = [])
    (constant : told mark constantLines = []) :
    told mark (ofSignals signals) = told mark (loopLines signals) := by
  rw [ofSignals, told_append, told_append, opening, List.nil_append]
  cases signals.recursion with
  | some found => simp only [recursion found, List.append_nil]
  | none =>
      by_cases none : signals.loopCount = 0
      · simp only [if_pos none, constant, List.append_nil]
      · simp only [if_neg none, told, List.filterMap_nil, List.append_nil]

-- A mark of which only the lines on a recursion can speak.
theorem told_recursion_only (opening : told mark [.plain "🔍 Code Analysis Started".toList] = [])
    (loops : told mark (loopLines signals) = []) (constant : told mark constantLines = []) :
    told mark (ofSignals signals) =
      (signals.recursion.map fun recursion => told mark (recursionLines recursion)).getD [] := by
  rw [ofSignals, told_append, told_append, opening, loops, List.nil_append, List.nil_append]
  cases signals.recursion with
  | some found => rfl
  | none =>
      by_cases none : signals.loopCount = 0
      · simp only [if_pos none, constant, Option.map_none, Option.getD_none]
      · simp only [if_neg none, told, List.filterMap_nil, Option.map_none, Option.getD_none]

-- A mark that only lines on a recursion start with.
theorem told_recursion (marked : mark ≠ [])
    (apart : mark.head? ∉ [some '❌', some '➡', some '🔎', some 'T', some '🔍', some '📦']) :
    told mark (ofSignals signals) =
      (signals.recursion.map fun recursion => told mark (recursionLines recursion)).getD [] := by
  simp only [List.mem_cons, List.not_mem_nil, or_false, not_or] at apart
  have loops : told mark (loopLines signals) = [] := by
    apply told_unlike mark _ marked
    intro line member same
    have starts := loop_line_starts signals line member
    rw [same] at starts
    simp [apart] at starts
  have opening : told mark [.plain "🔍 Code Analysis Started".toList] = [] := by
    apply told_unlike mark _ marked
    simp [Line.plain, Ne.symm apart.2.2.2.2.1]
  have constant : told mark constantLines = [] := by
    apply told_unlike mark _ marked
    simp [constantLines, Line.plain, Line.opening, Ne.symm apart.2.2.2.1, Ne.symm apart.2.2.2.2.2]
  exact told_recursion_only mark signals opening loops constant

end Parts

theorem master_case_silent (mark : Text) (calls : Nat)
    (balanced : told mark
      [.plain "→ Case 2: f(n) = Θ(n^log_b(a)) ⇒ T(n) = Θ(n log n)".toList,
        .opening "🟢 Final Time Complexity: O(n log n)".toList] = [])
    (steep : told mark [.plain ("→ Case 1: T(n) = Θ(n^".toList ++ exponentText calls ++ ")".toList)] = [])
    (flat : told mark [.plain "→ Case 3: T(n) = Θ(n)".toList] = []) :
    told mark (masterCase calls) = [] := by
  rw [masterCase]
  split
  · exact balanced
  · split
    · exact steep
    · exact flat

theorem polynomial_differs (degree : Nat) (other : Text) (unlike : other[3]? ≠ some '^') :
    polynomial degree ≠ other := by
  intro same
  have third : (polynomial degree)[3]? = some '^' := rfl
  rw [same] at third
  exact unlike third

theorem polynomial_positive (degree : Nat) (positive : 0 < degree) :
    polynomial degree ≠ "O(n^0)".toList := by
  intro same
  have front : "O(n^0)".toList = "O(n^".toList ++ decimal 0 ++ ")".toList := rfl
  rw [front, polynomial] at same
  have digits := List.append_cancel_left (List.append_cancel_right same)
  exact Nat.ne_of_gt positive (Text.decimal_injective digits)

section Loops

variable (signals : Signals) (lines : List Line)
  (time : told timeMark lines = told timeMark (loopVerdict signals))

include time

theorem search_verdict
    (search : signals.isBinarySearch = true ∨ signals.isBinarySearch = false ∧ signals.isLinearSearch = true) :
    ∃ verdict, LoopVerdict signals lines verdict := by
  rcases search with binary | ⟨binary, linear⟩
  · refine ⟨"O(log n)".toList, ⟨?_, ?_, ?_, ?_, ?_, by decide⟩⟩
    · rw [time, loopVerdict, if_pos binary]
      rfl
    all_goals simp [binary]
  · refine ⟨"O(n)".toList, ⟨?_, ?_, ?_, ?_, ?_, by decide⟩⟩
    · rw [time, loopVerdict, if_neg (by simp [binary]), if_pos linear]
      rfl
    all_goals simp [binary, linear]

theorem nesting_verdict (formula : told formulaMark lines = told formulaMark (loopVerdict signals))
    (binary : signals.isBinarySearch = false) (linear : signals.isLinearSearch = false)
    (deep : 0 < signals.loopDepth) : ∃ verdict, LoopVerdict signals lines verdict := by
  have nested : loopVerdict signals = nestingVerdict signals.loopDepth := by
    rw [loopVerdict, if_neg (by simp [binary]), if_neg (by simp [linear])]
  rw [nested] at time formula
  by_cases one : signals.loopDepth = 1
  · refine ⟨"O(n)".toList, ⟨?_, ?_, ?_, ?_, ?_, by decide⟩⟩
    · rw [time, nestingVerdict, if_pos one]
      rfl
    all_goals simp [binary, one]
  by_cases two : signals.loopDepth = 2
  · refine ⟨"O(n²)".toList, ⟨?_, ?_, ?_, ?_, ?_, by decide⟩⟩
    · rw [time, nestingVerdict, if_neg one, if_pos two]
      rfl
    all_goals simp [binary, linear, two]
  rw [nestingVerdict, if_neg one, if_neg two] at time formula
  refine ⟨polynomial signals.loopDepth, ⟨time, ?_, ?_, ?_, ?_, polynomial_positive _ deep⟩⟩
  · exact iff_of_false (polynomial_differs _ _ (by decide)) (by simp [binary])
  · exact iff_of_false (polynomial_differs _ _ (by decide)) (by simp [linear, one])
  · exact iff_of_false (polynomial_differs _ _ (by decide)) (by simp [two])
  · exact fun _ _ _ => ⟨rfl, formula⟩

end Loops

/-- Consistent signals with loops are narrated with one verdict on them. -/
theorem loop_verdict (signals : Signals) (consistent : signals.Consistent)
    (loops : 0 < signals.loopCount) : ∃ verdict, LoopVerdict signals (ofSignals signals) verdict := by
  have deep : 0 < signals.loopDepth := by
    have zero := consistent.depthZero
    omega
  have time : told timeMark (ofSignals signals) = told timeMark (loopVerdict signals) := by
    rw [told_loops timeMark signals rfl (fun r => master_case_silent timeMark r.callCount rfl rfl rfl) rfl,
      loopLines, if_neg (Nat.ne_of_gt loops), told_append, List.append_left_eq_self]
    rfl
  have formula : told formulaMark (ofSignals signals) = told formulaMark (loopVerdict signals) := by
    rw [told_loops formulaMark signals rfl (fun r => master_case_silent formulaMark r.callCount rfl rfl rfl) rfl,
      loopLines, if_neg (Nat.ne_of_gt loops), told_append, List.append_left_eq_self]
    rfl
  cases binary : signals.isBinarySearch with
  | true => exact search_verdict signals _ time (.inl binary)
  | false =>
      cases linear : signals.isLinearSearch with
      | true => exact search_verdict signals _ time (.inr ⟨binary, linear⟩)
      | false => exact nesting_verdict signals _ time formula binary linear deep

theorem exponent_proper (calls : Nat) (twice : 2 ≤ calls) :
    exponentText calls ≠ "-inf".toList ∧ exponentText calls ≠ "0.00".toList := by
  rw [exponentText]
  rcases Number.log_text_starts 2 calls twice with infinite | ⟨whole, cents, positive, shown⟩
  · rw [infinite]
    decide
  · have digits := Text.decimal_digits whole
    have starts := Text.decimal_starts whole positive
    rw [shown]
    cases written : decimal whole with
    | nil => exact absurd written (Text.decimal_ne_nil whole)
    | cons first rest =>
        rw [written] at digits starts
        have digit := digits first List.mem_cons_self
        constructor
        · intro same
          obtain ⟨rfl, -⟩ := List.cons.inj same
          revert digit
          decide
        · intro same
          obtain ⟨rfl, -⟩ := List.cons.inj same
          exact starts rfl

theorem balanced_iff (calls : Nat) (twice : 2 ≤ calls) : isBalanced calls = true ↔ calls = 2 := by
  constructor
  · intro balanced
    by_contra more
    have below : Nat.pow calls 100 < Nat.pow 2 101 := by
      simpa using (Bool.and_eq_true_iff.mp balanced).2
    have above : Nat.pow 3 100 ≤ Nat.pow calls 100 := Nat.pow_le_pow_left (by omega) 100
    have between : Nat.pow 2 101 ≤ Nat.pow 3 100 := by decide
    omega
  · rintro rfl
    decide

-- What is told of the case of the master theorem for at least two calls.
theorem case_told (calls : Nat) (twice : 2 ≤ calls) :
    told caseMark (masterCase calls) =
      if calls = 2 then ["2: f(n) = Θ(n^log_b(a)) ⇒ T(n) = Θ(n log n)".toList]
      else ["1: T(n) = Θ(n^".toList ++ exponentText calls ++ ")".toList] := by
  by_cases two : calls = 2
  · rw [if_pos two, masterCase, if_pos ((balanced_iff calls twice).mpr two)]
    decide
  · rw [if_neg two, masterCase, if_neg (mt (balanced_iff calls twice).mp two), if_pos (by omega)]
    rfl

/-- A recursion with at least two calls is narrated with a proper exponent and one case. -/
theorem derivation (signals : Signals) (recursion : Scan.Recursion)
    (found : signals.recursion = some recursion) (twice : 2 ≤ recursion.callCount) :
    Derivation recursion (ofSignals signals) (exponentText recursion.callCount) := by
  have cased : told caseMark (ofSignals signals) = told caseMark (masterCase recursion.callCount) := by
    rw [told_recursion caseMark signals (by decide) (by decide), found, Option.map_some, Option.getD_some,
      recursionLines, told_append, List.append_left_eq_self]
    rfl
  refine ⟨?_, ?_, exponent_proper _ twice, ?_, ?_⟩
  · rw [told_recursion powerMark signals (by decide) (by decide), found, Option.map_some, Option.getD_some,
      recursionLines, told_append, master_case_silent powerMark _ rfl rfl rfl]
    rfl
  · rw [told_recursion comparisonMark signals (by decide) (by decide), found, Option.map_some,
      Option.getD_some, recursionLines, told_append, master_case_silent comparisonMark _ rfl rfl rfl]
    rfl
  · rw [cased, case_told _ twice]
    by_cases two : recursion.callCount = 2
    · exact iff_of_true (if_pos two) two
    · simp [two]
  · rw [cased, case_told _ twice]
    by_cases two : recursion.callCount = 2
    · simp [two]
    · exact iff_of_true (if_neg two) (by omega)

end Narration

end OrderOfGrowth
