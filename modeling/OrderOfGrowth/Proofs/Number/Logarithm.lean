import OrderOfGrowth.Number.Logarithm
import OrderOfGrowth.Proofs.Text.Numeral
import Mathlib.Algebra.Order.Field.Power
import Mathlib.Algebra.Order.Field.Rat
import Mathlib.Tactic.NormNum
import Mathlib.Tactic.Positivity
import Mathlib.Tactic.Ring

/-!
Logarithms that are shown. Rounding takes no whole bound away (`le_round_to_even`), so a fraction that is at
least one is at least one as a floating point number too (`of_fraction_at_least_one`). The logarithm of a
number from three on is at least one, and more than that of two: their quotient is at least one, and is
shown with a whole part (`log_text_starts`).
-/

set_option autoImplicit false

namespace OrderOfGrowth.Number

section Fractions

variable (numerator denominator : Nat)

theorem scaled_value (base : Nat) (exponent : Int) :
    ((scaled base numerator denominator exponent).1 : ℚ) / (scaled base numerator denominator exponent).2 =
      numerator / denominator * (base : ℚ) ^ exponent := by
  rw [scaled]
  split
  · have power : (base : ℚ) ^ exponent = ((base : ℚ) ^ exponent.natAbs)⁻¹ := by
      rw [← zpow_natCast, ← zpow_neg]
      congr 1
      omega
    rw [power, Nat.pow_eq, Nat.cast_mul, Nat.cast_pow, div_mul_eq_div_div, div_eq_mul_inv _ ((base : ℚ) ^ _)]
  · have power : (base : ℚ) ^ exponent = (base : ℚ) ^ exponent.natAbs := by
      rw [← zpow_natCast]
      congr 1
      omega
    rw [power, Nat.pow_eq, Nat.cast_mul, Nat.cast_pow, mul_div_right_comm]

theorem scaled_positive (base : Nat) (exponent : Int) (some : 0 < base) (positive : 0 < denominator) :
    0 < (scaled base numerator denominator exponent).2 := by
  rw [scaled]
  split
  · exact Nat.mul_pos positive (Nat.pow_pos some)
  · exact positive

-- Rounding takes no whole bound away.
theorem le_round_to_even (whole : Nat) (positive : 0 < denominator) (least : (whole : ℚ) ≤ numerator / denominator) :
    whole ≤ roundToEven numerator denominator := by
  have below : whole ≤ numerator / denominator := by
    rw [Nat.le_div_iff_mul_le positive]
    rw [le_div_iff₀ (Nat.cast_pos.mpr positive)] at least
    exact_mod_cast least
  have rounded : numerator / denominator ≤ roundToEven numerator denominator := by
    rw [roundToEven]
    split
    · exact Nat.le_refl _
    · split <;> exact Nat.le_add_right _ _
  exact Nat.le_trans below rounded

theorem floor_log_le (some : 0 < numerator) (positive : 0 < denominator) :
    (2 : ℚ) ^ floorLog numerator denominator ≤ numerator / denominator := by
  rw [floorLog]
  split
  · rename_i fits
    generalize (Nat.log2 numerator : Int) - (Nat.log2 denominator : Int) = guess at fits ⊢
    have value := scaled_value 1 1 2 guess
    have power := scaled_positive 1 1 2 guess (by decide) (by decide)
    rw [Nat.cast_one, div_one, one_mul, Nat.cast_ofNat] at value
    rw [← value, div_le_div_iff₀ (Nat.cast_pos.mpr power) (Nat.cast_pos.mpr positive)]
    exact_mod_cast fits
  · have least : (2 : ℚ) ^ Nat.log2 numerator ≤ numerator := by
      exact_mod_cast Nat.log2_self_le (Nat.ne_of_gt some)
    have most : (denominator : ℚ) ≤ 2 ^ (Nat.log2 denominator + 1) := by
      exact_mod_cast Nat.le_of_lt Nat.lt_log2_self
    have power : (2 : ℚ) ^ ((Nat.log2 numerator : Int) - (Nat.log2 denominator : Int) - 1) =
        2 ^ Nat.log2 numerator / 2 ^ (Nat.log2 denominator + 1) := by
      rw [sub_sub, zpow_sub₀ two_ne_zero, zpow_natCast]
      rfl
    rw [power]
    exact div_le_div₀ (by positivity) least (Nat.cast_pos.mpr positive) most

theorem floor_log_whole (a : Nat) (some : a ≠ 0) : floorLog a 1 = Nat.log2 a := by
  have guess : (Nat.log2 a : Int) - (Nat.log2 1 : Int) = Nat.log2 a := by
    have none : Nat.log2 1 = 0 := by decide
    rw [none]
    simp
  have power : scaled 2 1 1 (Nat.log2 a : Int) = (2 ^ Nat.log2 a, 1) := by
    rw [scaled, if_neg (by omega), Int.natAbs_natCast, Nat.pow_eq, Nat.one_mul]
  rw [floorLog, guess, power, if_pos]
  rw [Nat.mul_one, Nat.mul_one]
  exact Nat.log2_self_le some

end Fractions

namespace Binary64

inductive AtLeastOne : Binary64 → Prop where
  | finite (m : Nat) (e : Int) (least : 1 ≤ (m : ℚ) * 2 ^ e) : AtLeastOne (.finite false m e)
  | infinite : AtLeastOne (.infinite false)

-- A fraction in units of a power of two, rounded.
theorem rounded_at_least_one (numerator denominator : Nat) (fraction : Nat × Nat) (exponent : Int)
    (units : scaled 2 numerator denominator (-exponent) = fraction) (positive : 0 < denominator)
    (least : denominator ≤ numerator) (bounded : 0 < exponent → exponent ≤ floorLog numerator denominator) :
    1 ≤ (roundToEven fraction.1 fraction.2 : ℚ) * 2 ^ exponent := by
  have value := scaled_value numerator denominator 2 (-exponent)
  have divides := scaled_positive numerator denominator 2 (-exponent) (by decide) positive
  rw [units] at value divides
  rw [Nat.cast_ofNat] at value
  by_cases above : 0 < exponent
  · -- There are so many units that one is left of them.
    have fits : (2 : ℚ) ^ exponent ≤ numerator / denominator :=
      le_trans (zpow_le_zpow_right₀ one_le_two (bounded above))
        (floor_log_le numerator denominator (Nat.lt_of_lt_of_le positive least) positive)
    have one : 1 ≤ roundToEven fraction.1 fraction.2 := by
      apply le_round_to_even _ _ _ divides
      rw [value, Nat.cast_one, zpow_neg, ← div_eq_mul_inv, one_le_div (by positivity)]
      exact fits
    have power : (1 : ℚ) ≤ 2 ^ exponent := one_le_zpow₀ one_le_two (Int.le_of_lt above)
    exact one_le_mul_of_one_le_of_one_le (Nat.one_le_cast.mpr one) power
  · have power : ((2 ^ exponent.natAbs : Nat) : ℚ) = 2 ^ (-exponent) := by
      rw [Nat.cast_pow, Nat.cast_ofNat, ← zpow_natCast]
      congr 1
      omega
    have one : (1 : ℚ) ≤ numerator / denominator := by
      rw [one_le_div (Nat.cast_pos.mpr positive)]
      exact_mod_cast least
    have kept : 2 ^ exponent.natAbs ≤ roundToEven fraction.1 fraction.2 := by
      apply le_round_to_even _ _ _ divides
      rw [value, power]
      exact le_mul_of_one_le_left (by positivity) one
    calc (1 : ℚ) = 2 ^ (-exponent) * 2 ^ exponent := by
          rw [← zpow_add₀ two_ne_zero, neg_add_cancel, zpow_zero]
      _ ≤ roundToEven fraction.1 fraction.2 * 2 ^ exponent := by
          rw [← power]
          exact mul_le_mul_of_nonneg_right (Nat.cast_le.mpr kept) (by positivity)

theorem of_fraction_at_least_one (numerator denominator : Nat) (positive : 0 < denominator)
    (least : denominator ≤ numerator) : AtLeastOne (ofFraction false numerator denominator) := by
  have kept := rounded_at_least_one numerator denominator _
    (max (floorLog numerator denominator - 52) (-1074)) rfl positive least (by omega)
  rw [ofFraction, if_neg (Nat.ne_of_gt (Nat.lt_of_lt_of_le positive least))]
  dsimp only
  split
  · exact .infinite
  · split
    · rename_i full
      rw [full] at kept
      refine .finite _ _ (le_of_le_of_eq kept ?_)
      rw [zpow_add_one₀ two_ne_zero, mantissaBound]
      push_cast
      ring
    · exact .finite _ _ kept

theorem ln_two : ln 2 = .finite false 6243314768165359 (-53) := by
  decide +kernel

theorem of_fraction_exponent (numerator denominator mantissa : Nat) (negative other : Bool) (exponent : Int)
    (some : numerator ≠ 0) (shape : ofFraction negative numerator denominator = .finite other mantissa exponent) :
    floorLog numerator denominator - 52 ≤ exponent := by
  rw [ofFraction, if_neg some] at shape
  dsimp only at shape
  split at shape
  · cases shape
  · split at shape
    · cases shape
      omega
    · cases shape
      omega

theorem log_units_positive : 0 < logUnits :=
  Nat.two_pow_pos 128

-- Twice the logarithm of two is more than one already.
theorem ln_units_large (mantissa : Nat) (exponent : Int) (twice : 2 ≤ exponent + 52) :
    logUnits ≤ lnUnits mantissa exponent := by
  have double : logUnits ≤ 2 * ratioLog 1 3 := by decide +kernel
  have powers : 2 * ratioLog 1 3 ≤ (exponent + 52).toNat * ratioLog 1 3 := Nat.mul_le_mul_right _ (by omega)
  rw [lnUnits]
  exact Nat.le_trans double (Nat.le_trans powers (Nat.le_add_right _ _))

theorem ln_at_least_one (a : Nat) (three : 3 ≤ a) : AtLeastOne (ln a) := by
  have some : a ≠ 0 := by omega
  have least := of_fraction_at_least_one a 1 Nat.one_pos (by omega)
  rw [ln, if_neg some]
  cases whole : ofFraction false a 1 with
  | undefined =>
      rw [whole] at least
      cases least
  | infinite negative =>
      rw [whole] at least
      exact least
  | finite negative m e =>
      refine of_fraction_at_least_one (lnUnits m e) logUnits log_units_positive ?_
      by_cases four : 4 ≤ a
      · have log : 2 ≤ Nat.log2 a := (Nat.le_log2 some).mpr four
        have exponent := of_fraction_exponent a 1 m false negative e some whole
        rw [floor_log_whole a some] at exponent
        exact ln_units_large m e (by omega)
      · obtain rfl : a = 3 := by omega
        have shape : ofFraction false 3 1 = .finite false 6755399441055744 (-51) := by decide +kernel
        cases shape.symm.trans whole
        decide +kernel

theorem quotient_at_least_one (x : Binary64) (least : AtLeastOne x) : AtLeastOne (quotient x (ln 2)) := by
  rw [ln_two]
  cases least with
  | infinite => exact .infinite
  | finite m e least =>
      rw [quotient]
      have value := scaled_value m 6243314768165359 2 (e - -53)
      have divides := scaled_positive m 6243314768165359 2 (e - -53) (by decide) (by decide)
      generalize scaled 2 m 6243314768165359 (e - -53) = fraction at value divides
      apply of_fraction_at_least_one _ _ divides
      have one : (1 : ℚ) ≤ fraction.1 / fraction.2 := by
        have shift : (2 : ℚ) ^ (e - -53) = 2 ^ e * 2 ^ 53 := by
          rw [sub_neg_eq_add, zpow_add₀ two_ne_zero]
          rfl
        calc (1 : ℚ) ≤ m * 2 ^ e := least
          _ ≤ m * 2 ^ e * (2 ^ 53 / 6243314768165359) :=
              le_mul_of_one_le_right (by positivity) (by norm_num)
          _ = fraction.1 / fraction.2 := by
              rw [value, Nat.cast_ofNat, Nat.cast_ofNat, shift]
              ring
      rw [one_le_div (Nat.cast_pos.mpr divides)] at one
      exact_mod_cast one

theorem quotient_of_two : AtLeastOne (quotient (ln 2) (ln 2)) := by
  rw [ln_two, quotient]
  exact of_fraction_at_least_one _ _ (by decide) (by decide)

theorem fixed_text_starts (places : Nat) (x : Binary64) (least : AtLeastOne x) :
    fixedText places x = "inf".toList ∨
      ∃ whole cents, 1 ≤ whole ∧ fixedText places x = Text.decimal whole ++ '.' :: cents := by
  cases least with
  | infinite => exact .inl rfl
  | finite m e least =>
      right
      have value := scaled_value (m * Nat.pow 10 places) 1 2 e
      have divides := scaled_positive (m * Nat.pow 10 places) 1 2 e (by decide) Nat.one_pos
      rw [fixedText]
      generalize scaled 2 (m * Nat.pow 10 places) 1 e = fraction at value divides
      have units : Nat.pow 10 places ≤ roundToEven fraction.1 fraction.2 := by
        apply le_round_to_even _ _ _ divides
        calc ((Nat.pow 10 places : Nat) : ℚ) ≤ m * 2 ^ e * (Nat.pow 10 places : Nat) :=
              le_mul_of_one_le_left (Nat.cast_nonneg _) least
          _ = fraction.1 / fraction.2 := by
              rw [value, Nat.cast_mul, Nat.cast_one, Nat.cast_ofNat]
              ring
      exact ⟨_, _, (Nat.one_le_div_iff (Nat.pow_pos (by decide))).mpr units, rfl⟩

end Binary64

-- From two on a logarithm is shown with a whole part, if it is not beyond all numbers.
theorem log_text_starts (places a : Nat) (two : 2 ≤ a) : logText places a = "inf".toList ∨
    ∃ whole cents, 1 ≤ whole ∧ logText places a = Text.decimal whole ++ '.' :: cents := by
  apply Binary64.fixed_text_starts
  by_cases three : 3 ≤ a
  · exact Binary64.quotient_at_least_one _ (Binary64.ln_at_least_one a three)
  · obtain rfl : a = 2 := by omega
    exact Binary64.quotient_of_two

-- What a number is shown with: digits, a sign, a point, and letters where it is none.
def isNumberChar (c : Char) : Bool :=
  c.isDigit || c == '-' || c == '.' || c == 'N' || c == 'a' || c == 'i' || c == 'n' || c == 'f'

theorem digit_number_char (c : Char) (digit : c.isDigit = true) : isNumberChar c = true := by
  simp [isNumberChar, digit]

theorem fixed_point_chars (places units : Nat) : ∀ c ∈ fixedPoint places units, isNumberChar c = true := by
  intro c member
  rw [fixedPoint, List.mem_append, List.mem_cons, Text.padLeft, List.mem_append] at member
  rcases member with digit | rfl | zero | digit
  · exact digit_number_char c (Text.decimal_digits _ c digit)
  · rfl
  · rw [List.eq_of_mem_replicate zero]
    rfl
  · exact digit_number_char c (Text.decimal_digits _ c digit)

theorem fixed_text_chars (places : Nat) (x : Binary64) : ∀ c ∈ x.fixedText places, isNumberChar c = true := by
  have sign (negative : Bool) : ∀ c ∈ Binary64.signText negative, isNumberChar c = true := by
    cases negative <;> simp [Binary64.signText, isNumberChar]
  have letters : ∀ c ∈ "inf".toList, isNumberChar c = true := by simp [isNumberChar]
  have none : ∀ c ∈ "NaN".toList, isNumberChar c = true := by simp [isNumberChar]
  cases x with
  | undefined => exact none
  | infinite negative => exact List.forall_mem_append.mpr ⟨sign negative, letters⟩
  | finite negative m e => exact List.forall_mem_append.mpr ⟨sign negative, fixed_point_chars places _⟩

end OrderOfGrowth.Number
