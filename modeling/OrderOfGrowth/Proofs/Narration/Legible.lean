import OrderOfGrowth.Proofs.Narration.Told
import OrderOfGrowth.Proofs.Scan.Definitions
import OrderOfGrowth.Text.Numeral

/-!
The characters of a narration. Of a source only numbers and the name of a function come into it, so no
line is empty or has a control character in it (`lines_legible`).
-/

set_option autoImplicit false

namespace OrderOfGrowth

namespace Text

def Clear (s : Text) : Prop :=
  ∀ c ∈ s, isControl c = false

instance (s : Text) : Decidable (Clear s) :=
  List.decidableBAll (isControl · = false) s

theorem Clear.append {s t : Text} (first : Clear s) (second : Clear t) : Clear (s ++ t) :=
  List.forall_mem_append.mpr ⟨first, second⟩

theorem Clear.cons {c : Char} {s : Text} (plain : isControl c = false) (rest : Clear s) : Clear (c :: s) :=
  List.forall_mem_cons.mpr ⟨plain, rest⟩

theorem name_char_clear (c : Char) (inName : isNameChar c = true) : isControl c = false := by
  have code := Scan.name_char_code c inName
  rw [Bool.eq_false_iff]
  intro control
  simp only [isControl, Bool.or_eq_true, Bool.and_eq_true, decide_eq_true_eq, beq_iff_eq] at control
  omega

theorem clear_name {name : Text} (inside : ∀ c ∈ name, isNameChar c = true) : Clear name :=
  fun c member => name_char_clear c (inside c member)

theorem clear_decimal (n : Nat) : Clear (decimal n) := by
  intro c member
  have digit := decimal_digits n c member
  exact name_char_clear c (by simp [isNameChar, Char.isAlphanum, digit])

theorem clear_zeros (n : Nat) : Clear (List.replicate n '0') := by
  intro c member
  rw [List.eq_of_mem_replicate member]
  decide

theorem clear_pad_left (width : Nat) (s : Text) (clear : Clear s) : Clear (padLeft '0' width s) :=
  (clear_zeros (width - s.length)).append clear

theorem number_char_clear (c : Char) (shows : Number.isNumberChar c = true) : isControl c = false := by
  simp only [Number.isNumberChar, Bool.or_eq_true, beq_iff_eq] at shows
  rcases shows with ((((((digit | rfl) | rfl) | rfl) | rfl) | rfl) | rfl) | rfl
  · exact name_char_clear c (by simp [isNameChar, Char.isAlphanum, digit])
  all_goals decide

end Text

theorem Narration.clear_exponent (calls : Nat) : Text.Clear (exponentText calls) :=
  fun c member => Text.number_char_clear c (Number.fixed_text_chars 2 _ c member)

structure Line.Legible (line : Line) : Prop where
  shown : line.text ≠ []
  clear : Text.Clear line.text

instance (line : Line) : Decidable line.Legible :=
  decidable_of_iff (line.text ≠ [] ∧ Text.Clear line.text)
    ⟨fun both => ⟨both.1, both.2⟩, fun legible => ⟨legible.shown, legible.clear⟩⟩

theorem Line.Legible.single {line : Line} (legible : line.Legible) : '\n' ∉ line.text := by
  intro member
  have clear := legible.clear '\n' member
  revert clear
  decide

namespace Narration

open Text (decimal Clear clear_decimal)

-- A line that starts with a word of its own and goes on with something clear.
theorem legible_front (front rest : Text) (opens : Bool) (starts : front ≠ []) (clear : Clear front)
    (goesOn : Clear rest) : Line.Legible ⟨front ++ rest, opens⟩ :=
  ⟨List.append_ne_nil_of_left_ne_nil starts rest, clear.append goesOn⟩

theorem nesting_legible (depth : Nat) : ∀ line ∈ nestingVerdict depth, line.Legible := by
  rw [nestingVerdict]
  split
  · decide
  split
  · decide
  · rw [List.forall_mem_cons, List.forall_mem_singleton]
    have digits := clear_decimal depth
    have index := clear_decimal (depth + 1)
    constructor
    · rw [Line.plain, List.append_assoc]
      exact legible_front _ _ _ (by decide) (by decide) (digits.append (by decide))
    · rw [Line.opening, List.append_assoc, List.append_assoc]
      exact legible_front _ _ _ (by decide) (by decide) (index.append (.append (by decide) digits))

theorem loop_lines_legible (signals : Signals) : ∀ line ∈ loopLines signals, line.Legible := by
  rw [loopLines]
  split
  · decide
  rw [List.forall_mem_append, List.forall_mem_cons, List.forall_mem_singleton]
  refine ⟨⟨?_, ?_⟩, ?_⟩
  · rw [Line.opening, List.append_assoc]
    exact legible_front _ _ _ (by decide) (by decide) ((clear_decimal _).append (by decide))
  · exact legible_front _ _ _ (by decide) (by decide) (clear_decimal _)
  rw [loopVerdict]
  split
  · decide
  split
  · decide
  · exact nesting_legible signals.loopDepth

theorem master_case_legible (calls : Nat) : ∀ line ∈ masterCase calls, line.Legible := by
  rw [masterCase]
  split
  · decide
  split
  · rw [List.forall_mem_singleton, Line.plain, List.append_assoc]
    exact legible_front _ _ _ (by decide) (by decide) ((clear_exponent calls).append (by decide))
  · decide

theorem recursion_lines_legible (recursion : Scan.Recursion)
    (inside : ∀ c ∈ recursion.functionName, Text.isNameChar c = true) :
    ∀ line ∈ recursionLines recursion, line.Legible := by
  have calls := clear_decimal recursion.callCount
  have exponent := clear_exponent recursion.callCount
  rw [recursionLines, List.forall_mem_append]
  refine ⟨?_, master_case_legible recursion.callCount⟩
  simp only [List.forall_mem_cons, List.not_mem_nil, false_implies, implies_true, and_true]
  refine ⟨?_, ?_, by decide, ?_, ?_, ?_⟩
  · exact legible_front _ _ _ (by decide) (by decide) (Text.clear_name inside)
  · exact legible_front _ _ _ (by decide) (by decide) calls
  · rw [Line.opening, List.append_assoc]
    exact legible_front _ _ _ (by decide) (by decide) (calls.append (by decide))
  · rw [Line.plain, List.append_assoc, List.append_assoc]
    exact legible_front _ _ _ (by decide) (by decide) (calls.append (.append (by decide) exponent))
  · rw [Line.plain, List.append_assoc]
    exact legible_front _ _ _ (by decide) (by decide) (exponent.append (by decide))

theorem lines_legible (signals : Signals) (consistent : signals.Consistent) :
    ∀ line ∈ ofSignals signals, line.Legible := by
  rw [ofSignals, List.forall_mem_append, List.forall_mem_append]
  refine ⟨⟨by decide, loop_lines_legible signals⟩, ?_⟩
  cases found : signals.recursion with
  | some recursion => exact recursion_lines_legible recursion (consistent.recursion recursion found).2.1
  | none =>
      by_cases none : signals.loopCount = 0
      · simp only [if_pos none]
        decide
      · simp [none]

end Narration

end OrderOfGrowth
