import OrderOfGrowth.Json.Printer
import OrderOfGrowth.Json.Reader
import OrderOfGrowth.Proofs.Text.Numeral
import Mathlib.Tactic.IntervalCases

/-!
The strings and whole numbers of JSON, printed and read back. A string reads back whatever follows it
(`string_printed`), a number reads back unless what follows would go on with it (`number_printed`).
-/

set_option autoImplicit false

namespace OrderOfGrowth.Json

-- What a character of a string is written as: itself, or an escape that reads as it.
inductive Wrote (c : Char) : Text → Prop
  | bare : c ≠ '"' → c ≠ '\\' → ¬ c.toNat < 32 → Wrote c [c]
  | short (mark : Char) : mark ≠ 'u' → shortEscape? mark = some c → Wrote c ['\\', mark]
  | codePoint (digits : Text) : (∀ rest, codePoint? (digits ++ rest) = some (c, rest)) →
      Wrote c ('\\' :: 'u' :: digits)

theorem four_digits : ∀ n < 32, ∃ a b c d,
    Text.padLeft '0' 4 (Nat.toDigits 16 n) = [a, b, c, d] ∧ Text.valueOfDigits? 16 [a, b, c, d] = some n := by
  intro n small
  interval_cases n <;> exact ⟨_, _, _, _, rfl, rfl⟩

theorem code_point_written (c : Char) (control : c.toNat < 32) (rest : Text) :
    codePoint? (Text.padLeft '0' 4 (Nat.toDigits 16 c.toNat) ++ rest) = some (c, rest) := by
  obtain ⟨a, b, d, e, shape, value⟩ := four_digits c.toNat control
  have high : ¬ (0xD800 ≤ c.toNat ∧ c.toNat < 0xDC00) := by omega
  rw [shape, codePoint?]
  simp [fourDigits?, value, high, Text.char_of_code_point]

theorem escape_char_wrote (c : Char) : Wrote c (escapeChar c) := by
  by_cases quote : c = '"'
  · subst quote
    exact .short '"' (by decide) rfl
  by_cases backslash : c = '\\'
  · subst backslash
    exact .short '\\' (by decide) rfl
  by_cases control : c.toNat < 32
  · rw [escapeChar, if_neg quote, if_neg backslash, if_pos control]
    by_cases backspace : c = '\x08'
    · subst backspace
      exact .short 'b' (by decide) rfl
    by_cases formFeed : c = '\x0c'
    · subst formFeed
      exact .short 'f' (by decide) rfl
    by_cases feed : c = '\n'
    · subst feed
      exact .short 'n' (by decide) rfl
    by_cases carriageReturn : c = '\r'
    · subst carriageReturn
      exact .short 'r' (by decide) rfl
    by_cases tab : c = '\t'
    · subst tab
      exact .short 't' (by decide) rfl
    rw [controlEscape, if_neg backspace, if_neg formFeed, if_neg feed, if_neg carriageReturn, if_neg tab]
    exact .codePoint _ (code_point_written c control)
  · rw [escapeChar, if_neg quote, if_neg backslash, if_neg control]
    exact .bare quote backslash control

theorem characters_wrote (c : Char) (written : Text) (wrote : Wrote c written) (fuel : Nat)
    (text found rest : Text) (later : characters? fuel text = some (found, rest)) :
    characters? (fuel + 1) (written ++ text) = some (c :: found, rest) := by
  cases wrote with
  | bare quote backslash control => simp [characters?, quote, backslash, control, later]
  | short mark _ reads => simp [characters?, reads, later]
  | codePoint digits reads => simp [characters?, reads, later]

theorem characters_escaped (s rest : Text) (fuel : Nat) (enough : s.length < fuel) :
    characters? fuel (s.flatMap escapeChar ++ '"' :: rest) = some (s, rest) := by
  induction s generalizing fuel with
  | nil =>
      cases fuel with
      | zero => exact absurd enough (Nat.lt_irrefl 0)
      | succ fuel => rfl
  | cons c s ih =>
      cases fuel with
      | zero => exact absurd enough (Nat.not_lt_zero _)
      | succ fuel =>
          rw [List.flatMap_cons, List.append_assoc]
          exact characters_wrote c _ (escape_char_wrote c) fuel _ _ _ (ih fuel (Nat.lt_of_succ_lt_succ enough))

theorem escaped_length (s : Text) : s.length ≤ (s.flatMap escapeChar).length := by
  induction s with
  | nil => exact Nat.le_refl _
  | cons c s ih =>
      have written : 1 ≤ (escapeChar c).length := by
        have wrote := escape_char_wrote c
        generalize escapeChar c = written at wrote ⊢
        cases wrote <;> simp
      rw [List.flatMap_cons, List.length_append, List.length_cons]
      omega

theorem string_printed (s rest : Text) : string? (printString s ++ rest) = some (s, rest) := by
  have long := escaped_length s
  rw [printString, List.cons_append, List.cons_append, List.append_assoc, List.singleton_append, string?]
  apply characters_escaped
  rw [List.length_append]
  omega

-- A text that does not go on with a number in front of it.
def EndsNumber (rest : Text) : Prop :=
  ∀ c ∈ rest.head?, c.isDigit = false ∧ c ≠ '.' ∧ c ≠ 'e' ∧ c ≠ 'E'

theorem take_digits (n : Nat) (rest : Text) (ends : EndsNumber rest) :
    (Text.decimal n ++ rest).takeWhile Char.isDigit = Text.decimal n := by
  rw [List.takeWhile_append_of_pos (Text.decimal_digits n)]
  cases rest with
  | nil => simp
  | cons c rest => simp [(ends c rfl).1]

theorem no_fraction (rest : Text) (ends : EndsNumber rest) : fractionDigits? rest = some ([], rest) := by
  cases rest with
  | nil => rfl
  | cons c rest =>
      rw [fractionDigits?]
      rintro s same
      exact (ends c rfl).2.1 (List.cons.inj same).1

theorem no_exponent (rest : Text) (ends : EndsNumber rest) : exponentPart? rest = some (none, rest) := by
  cases rest with
  | nil => rfl
  | cons c rest =>
      obtain ⟨-, -, small, capital⟩ := ends c rfl
      simp [exponentPart?, small, capital]

-- A decimal has no leading zeros to stop at.
theorem leading_digits (n : Nat) :
    (if (Text.decimal n).head? = some '0' then ['0'] else Text.decimal n) = Text.decimal n := by
  by_cases zero : n = 0
  · subst zero
    rfl
  · rw [if_neg (Text.decimal_starts n (Nat.pos_of_ne_zero zero))]

theorem unsigned_printed (negative : Bool) (n : Nat) (rest : Text) (ends : EndsNumber rest) :
    unsigned? negative (Text.decimal n ++ rest) = some (wholeNumber negative (Text.decimal n), rest) := by
  simp only [unsigned?, take_digits n rest ends, leading_digits, if_neg (Text.decimal_ne_nil n),
    List.drop_left, no_fraction rest ends, Option.bind_eq_bind, Option.bind_some,
    no_exponent rest ends]
  rfl

-- Whole numbers that words of 64 bits hold, with a sign or without one.
def FitsNumber (z : Int) : Prop :=
  -(Number.signedBound : Int) ≤ z ∧ z < (Number.wordBound : Int)

theorem whole_number_positive (n : Nat) (fits : n < Number.wordBound) :
    wholeNumber false (Text.decimal n) = .integer n := by
  simp [wholeNumber, Text.value_of_decimal, Number.fitsWord, fits]

theorem whole_number_negative (n : Nat) (positive : 0 < n) (fits : n ≤ Number.signedBound) :
    wholeNumber true (Text.decimal n) = .integer (-n) := by
  have held : Number.fitsSignedWord (-n) = true := by
    simp only [Number.fitsSignedWord, Bool.and_eq_true, decide_eq_true_eq]
    have bound : 0 < Number.signedBound := by decide
    omega
  simp [wholeNumber, Text.value_of_decimal, positive, held]

theorem digit_not (c other : Char) (digit : c.isDigit = true) (outside : other.isDigit = false) : c ≠ other := by
  rintro rfl
  rw [digit] at outside
  cases outside

theorem number_printed (z : Int) (fits : FitsNumber z) (rest : Text) (ends : EndsNumber rest) :
    number? (Text.signedDecimal z ++ rest) = some (.integer z, rest) := by
  obtain ⟨low, high⟩ := fits
  by_cases negative : z < 0
  · rw [Text.signedDecimal, if_pos negative, List.cons_append, number?, unsigned_printed true _ rest ends,
      whole_number_negative z.natAbs (by omega) (by omega)]
    have back : -(z.natAbs : Int) = z := by omega
    rw [back]
  · have unsigned : number? (Text.decimal z.natAbs ++ rest) = unsigned? false (Text.decimal z.natAbs ++ rest) := by
      cases digits : Text.decimal z.natAbs with
      | nil => exact absurd digits (Text.decimal_ne_nil _)
      | cons c more =>
          have digit := Text.decimal_digits z.natAbs c (digits ▸ List.mem_cons_self)
          rw [List.cons_append, number?]
          rintro s same
          exact digit_not c '-' digit (by decide) (List.cons.inj same).1
    rw [Text.signedDecimal, if_neg negative, unsigned, unsigned_printed false _ rest ends,
      whole_number_positive z.natAbs (by omega)]
    have back : (z.natAbs : Int) = z := by omega
    rw [back]

end OrderOfGrowth.Json
