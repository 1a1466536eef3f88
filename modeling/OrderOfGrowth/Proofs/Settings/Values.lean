import OrderOfGrowth.Proofs.Text.Split
import OrderOfGrowth.Proofs.Text.Trim
import OrderOfGrowth.Proofs.Toml.Quoted
import OrderOfGrowth.Settings.Environment
import Mathlib.Data.List.TakeWhile

/-!
Values of variables that read as texts. A value without quotes and margins reads as itself if as a text at
all (`bare_value`), and as a text if it is nothing else (`wordy_value`). Every text is the value of some
variable, in quotes (`quoted_value`).
-/

set_option autoImplicit false

namespace OrderOfGrowth.Settings

-- A value reads as a text: as it stands, without its margins, or without its quotes.
inductive ReadsAs (v : Text) : Text → Prop
  | text (t : Text) : variableValue v = .text t → ReadsAs v t
  | character (c : Char) : variableValue v = .character c → ReadsAs v [c]

-- A value with no quote at its start and no white space at either end.
structure BareValue (v : Text) : Prop where
  noQuote : ∀ c ∈ v.head?, c ≠ '"' ∧ c ≠ '\''
  starts : ∀ c ∈ v.head?, Text.isWhiteSpace c = false
  ends : ∀ c ∈ v.getLast?, Text.isWhiteSpace c = false

theorem quoted_rest_basic (fuel : Nat) (s : Text) : quotedRest? fuel s = Toml.basicRest? fuel s := by
  induction fuel generalizing s with
  | zero => rfl
  | succ fuel ih =>
      cases s with
      | nil => rfl
      | cons c s => simp only [quotedRest?, Toml.basicRest?, ih]

def inQuotes (t : Text) : Text :=
  '"' :: (Toml.escape false 0 t ++ ['"'])

theorem four_digits_clear : ∀ n < 128, '\x00' ∉ Toml.fourDigits n := by
  decide +kernel

theorem escape_char_clear (c : Char) : '\x00' ∉ Toml.escapeChar false c := by
  unfold Toml.escapeChar
  split_ifs with _ _ _ _ _ _ _ control
  any_goals decide
  · have small : c.toNat < 128 := by
      simp [Text.isControl] at control
      omega
    exact List.not_mem_append (by decide) (four_digits_clear c.toNat small)
  · rw [List.mem_singleton]
    rintro rfl
    exact control rfl

theorem escape_clear (run : Nat) (t : Text) : '\x00' ∉ Toml.escape false run t := by
  induction t generalizing run with
  | nil => exact List.not_mem_nil
  | cons c t ih =>
      by_cases quote : c = '"'
      · rw [quote, Toml.escape_quote_line]
        simpa using ih 0
      · rw [Toml.escape_other false run c t quote]
        exact List.not_mem_append (escape_char_clear c) (ih 0)

theorem in_quotes_clear (t : Text) : '\x00' ∉ inQuotes t := by
  simpa [inQuotes] using escape_clear 0 t

theorem quoted_value (t : Text) : variableValue (inQuotes t) = .text t := by
  have rest : quotedRest? ((Toml.escape false 0 t).length + 1 + 1) (Toml.escape false 0 t ++ ['"']) = some (t, []) := by
    rw [quoted_rest_basic]
    exact Toml.basic_rest_escape 0 t [] _ (by omega)
  have start : skipBlanks (inQuotes t) = inQuotes t := rfl
  have value (fuel : Nat) : value? (fuel + 1) (inQuotes t) = some (.text t, []) := by
    rw [value?, start]
    simp [inQuotes, Text.after?, rest, skipBlanks]
  rw [variableValue, value]

theorem trim_bare (v : Text) (bare : BareValue v) : Text.trimBy Text.isWhiteSpace v = v :=
  Text.trim_by_self Text.isWhiteSpace v bare.starts bare.ends

theorem blank_white (c : Char) (blank : Text.isAsciiBlank c = true) : Text.isWhiteSpace c = true := by
  simp only [Text.isAsciiBlank, Bool.or_eq_true, beq_iff_eq] at blank
  rcases blank with (((rfl | rfl) | rfl) | rfl) | rfl <;> rfl

theorem separator_not_blank (c : Char) (separator : isSeparator c = true) : Text.isAsciiBlank c = false := by
  have listed : c ∈ [',', '\x7b', '\x7d', '[', ']'] := List.contains_iff_mem.mp separator
  simp only [List.mem_cons, List.not_mem_nil, or_false] at listed
  rcases listed with rfl | rfl | rfl | rfl | rfl <;> rfl

-- A run that leaves only blanks leaves nothing: behind a run there is a separator first.
theorem run_of_whole (v : Text)
    (whole : skipBlanks (v.drop (v.takeWhile (!isSeparator ·)).length) = []) : v.takeWhile (!isSeparator ·) = v := by
  have split := List.takeWhile_append_dropWhile (p := (!isSeparator ·)) (l := v)
  have behind : v.drop (v.takeWhile (!isSeparator ·)).length = v.dropWhile (!isSeparator ·) := by
    calc v.drop (v.takeWhile (!isSeparator ·)).length
        = (v.takeWhile (!isSeparator ·) ++ v.dropWhile (!isSeparator ·)).drop
            (v.takeWhile (!isSeparator ·)).length := by rw [split]
      _ = v.dropWhile (!isSeparator ·) := List.drop_left
  have stops := List.head?_dropWhile_not (!isSeparator ·) v
  rw [behind] at whole
  cases rest : v.dropWhile (!isSeparator ·) with
  | nil => rwa [rest, List.append_nil] at split
  | cons c left =>
      rw [rest] at whole stops
      have separator : isSeparator c = true := by simpa using stops
      rw [skipBlanks, List.dropWhile_cons_of_neg (by simp [separator_not_blank c separator])] at whole
      cases whole

-- How a bare value is read: as a switch, a table, a list or a number only if it is all of that.
inductive BareReading (v : Text) : Value → Prop
  | whole : BareReading v (.text v)
  | switch (b : Bool) : v = (if b then "true" else "false").toList → BareReading v (.flag b)
  | table (s : Text) (members : List (Text × Value)) : v = '{' :: s → BareReading v (.table members)
  | list (s : Text) (items : List Value) : v = '[' :: s → BareReading v (.list items)
  | plain : BareReading v (plain v)

-- Blanks at the end are margin.
theorem bare_no_blanks (v front rest : Text) (bare : BareValue v) (split : v = front ++ rest)
    (blank : skipBlanks rest = []) : v = front := by
  rw [skipBlanks, List.dropWhile_eq_nil_iff] at blank
  cases last : rest.getLast? with
  | none => rw [split, List.getLast?_eq_none_iff.mp last, List.append_nil]
  | some c =>
      have white := blank_white c (blank c (List.mem_of_getLast? last))
      rw [bare.ends c (by rw [split, List.getLast?_append, last]; rfl)] at white
      cases white

theorem bare_reading (v : Text) (bare : BareValue v) : BareReading v (variableValue v) := by
  have start : skipBlanks v = v := by
    refine Text.drop_while_self _ v fun c first => ?_
    rw [Bool.eq_false_iff]
    intro blank
    have inside := blank_white c blank
    rw [bare.starts c first] at inside
    cases inside
  rw [variableValue]
  split
  · rename_i value found
    rw [value?, start] at found
    split at found
    · rename_i rest after
      obtain ⟨rfl, whole⟩ := Prod.mk.inj (Option.some.inj found)
      exact .switch true (bare_no_blanks _ _ rest bare (Text.after_some _ _ rest after) whole)
    · rename_i rest after _
      obtain ⟨rfl, whole⟩ := Prod.mk.inj (Option.some.inj found)
      exact .switch false (bare_no_blanks _ _ rest bare (Text.after_some _ _ rest after) whole)
    · obtain ⟨_, mapped, same⟩ := Option.bind_eq_some_iff.mp found
      obtain ⟨_, -, rfl⟩ := Option.map_eq_some_iff.mp mapped
      obtain ⟨rfl, -⟩ := Prod.mk.inj (Option.some.inj same)
      exact .table _ _ rfl
    · obtain ⟨_, mapped, same⟩ := Option.bind_eq_some_iff.mp found
      obtain ⟨_, -, rfl⟩ := Option.map_eq_some_iff.mp mapped
      obtain ⟨rfl, -⟩ := Prod.mk.inj (Option.some.inj same)
      exact .list _ _ rfl
    · exact absurd rfl (bare.noQuote '"' rfl).1
    · exact absurd rfl (bare.noQuote '\'' rfl).2
    · exact absurd rfl (bare.noQuote '\'' rfl).2
    · obtain ⟨same, whole⟩ := Prod.mk.inj (Option.some.inj found)
      rw [run_of_whole _ whole, trim_bare _ bare] at same
      rw [← same]
      exact .plain
  · exact .whole

theorem plain_cases (s : Text) : plain s = .text s ∨ ∀ t c, plain s ≠ .text t ∧ plain s ≠ .character c := by
  unfold plain
  split
  · exact .inr (by simp)
  · split
    · exact .inr (by simp)
    · split
      · exact .inr (by simp)
      · exact .inl rfl

theorem bare_value (v t : Text) (bare : BareValue v) (reads : ReadsAs v t) : t = v := by
  have reading := bare_reading v bare
  cases reads with
  | text t same =>
      rw [same] at reading
      generalize result : Value.text t = value at reading
      cases reading with
      | whole => exact Value.text.inj result
      | plain =>
          rcases plain_cases v with text | textless
          · exact Value.text.inj (result.trans text)
          · exact absurd result.symm (textless t 'x').1
      | _ => cases result
  | character c same =>
      rw [same] at reading
      generalize result : Value.character c = value at reading
      cases reading with
      | plain =>
          rcases plain_cases v with text | textless
          · cases result.trans text
          · exact absurd result.symm (textless [] c).2
      | _ => cases result

-- A bare value that is no switch and no number, and that does not open a table or a list.
structure WordyValue (v : Text) : Prop extends BareValue v where
  noBracket : ∀ c ∈ v.head?, c ≠ '{' ∧ c ≠ '['
  noSwitch : v ≠ "true".toList ∧ v ≠ "false".toList
  noFloat : '.' ∈ v → Text.float? v = none
  noNumber : unsigned? v = none ∧ signed? v = none

theorem plain_wordy (v : Text) (wordy : WordyValue v) : plain v = .text v := by
  have noFloat : (if v.contains '.' then Text.float? v else none) = none := by
    split
    · rename_i point
      exact wordy.noFloat (List.contains_iff_mem.mp point)
    · rfl
  rw [plain, noFloat, wordy.noNumber.1, wordy.noNumber.2]

theorem wordy_value (v : Text) (wordy : WordyValue v) : ReadsAs v v := by
  have reading := bare_reading v wordy.toBareValue
  generalize result : variableValue v = value at reading
  cases reading with
  | whole => exact .text v result
  | switch b same =>
      cases b with
      | true => exact absurd same wordy.noSwitch.1
      | false => exact absurd same wordy.noSwitch.2
  | table s members same => exact absurd rfl (wordy.noBracket '{' (by rw [same]; rfl)).1
  | list s items same => exact absurd rfl (wordy.noBracket '[' (by rw [same]; rfl)).2
  | plain => exact .text v (result.trans (plain_wordy v wordy))

end OrderOfGrowth.Settings
