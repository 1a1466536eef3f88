import OrderOfGrowth.Text.Basic
import Mathlib.Data.Nat.Digits.Defs

/-!
Decimals and code points read back. A decimal is made of digits, only that of zero starts with a zero,
and its value is the number (`value_of_decimal`).
-/

set_option autoImplicit false

namespace OrderOfGrowth.Text

theorem decimal_digits (n : Nat) : ∀ c ∈ decimal n, c.isDigit = true :=
  fun _ inside => Nat.isDigit_of_mem_toDigits (by decide) (by decide) inside

theorem decimal_ne_nil (n : Nat) : decimal n ≠ [] :=
  Nat.toDigits_ne_nil

theorem digit_starts : ∀ n < 10, 0 < n → [n.digitChar].head? ≠ some '0' := by
  decide

-- Only zero starts with a zero.
theorem decimal_starts (n : Nat) (positive : 0 < n) : (decimal n).head? ≠ some '0' := by
  induction n using Nat.strong_induction_on with
  | _ n ih =>
    by_cases small : n < 10
    · rw [decimal, Nat.toDigits_of_lt_base small]
      exact digit_starts n small positive
    · have larger : 10 ≤ n := by omega
      have front : (decimal (n / 10)).head? ≠ some '0' := ih (n / 10) (by omega) (by omega)
      rw [decimal, Nat.toDigits_of_base_le (by decide) larger, List.head?_append]
      cases same : (Nat.toDigits 10 (n / 10)).head? with
      | none => exact absurd (List.head?_eq_none_iff.mp same) (decimal_ne_nil _)
      | some c => rwa [decimal, same] at front

theorem hex_value_digit (c : Char) (digit : c.isDigit = true) :
    hexValue? c = some (c.toNat - '0'.toNat) ∧ c.toNat - '0'.toNat < 10 := by
  have range : '0' ≤ c ∧ c ≤ '9' := by
    simpa [Char.isDigit, Char.le_def] using digit
  refine ⟨by rw [hexValue?, if_pos range], ?_⟩
  have low : '0'.toNat ≤ c.toNat := range.1
  have high : c.toNat ≤ '9'.toNat := range.2
  simp at low high ⊢
  omega

theorem value_of_digits_from (digits : Text) (inside : ∀ c ∈ digits, c.isDigit = true) (start : Nat) :
    digits.foldlM
      (fun n c => do
        let d ← hexValue? c
        if d < 10 then pure (10 * n + d) else none)
      start = some (Nat.ofDigitChars 10 digits start) := by
  induction digits generalizing start with
  | nil => rfl
  | cons c digits ih =>
      obtain ⟨value, small⟩ := hex_value_digit c (inside c List.mem_cons_self)
      have later := ih (fun d member => inside d (List.mem_cons_of_mem c member))
        (10 * start + (c.toNat - '0'.toNat))
      simp only [List.foldlM_cons, value, Option.bind_eq_bind, Option.bind_some, if_pos small,
        Option.pure_def, Nat.ofDigitChars_cons]
      exact later

theorem value_of_decimal (n : Nat) : valueOfDigits? 10 (decimal n) = some n := by
  rw [valueOfDigits?, value_of_digits_from _ (decimal_digits n), decimal, Nat.ofDigitChars_ten_toDigits]

theorem decimal_injective : Function.Injective decimal := by
  intro m n same
  have values := congrArg (valueOfDigits? 10) same
  rw [value_of_decimal, value_of_decimal] at values
  exact Option.some.inj values

theorem char_of_code_point (c : Char) : charOf? c.toNat = some c := by
  have valid : c.toNat.isValidChar := c.valid
  rw [charOf?, dif_pos valid]
  rfl

end OrderOfGrowth.Text
