import OrderOfGrowth.Proofs.Text.Numeral
import OrderOfGrowth.Toml.Quoted
import OrderOfGrowth.Toml.Writer

/-!
Strings, written and read back. What is written between the quotes of a string on several lines is
described once, with the run of quotes that it may go on with (`Inside`); both of its forms are such
texts, and a reader gets their meaning (`lines_rest_inside`). Whatever form is chosen for a string, it
reads back (`string_write`).
-/

set_option autoImplicit false

namespace OrderOfGrowth.Toml

-- What stands behind the backslash for an escaped character. It is no line end, so nothing folds.
structure EscapedAs (written : Text) (c : Char) : Prop where
  reads : ∀ rest, Text.escaped? (written ++ rest) = some (c, rest)
  stays : ∀ rest, afterFold? (written ++ rest) = none

theorem after_fold_none (c : Char) (s : Text) (noGap : isGap c = false) (noFeed : c ≠ '\n')
    (noReturn : c ≠ '\r') : afterFold? (c :: s) = none := by
  simp [afterFold?, afterLineEnd?, noGap, noFeed, noReturn]

def fourDigits (n : Nat) : Text :=
  Text.padLeft '0' 4 ((Nat.toDigits 16 n).map Char.toUpper)

theorem four_digits_read : ∀ n < 128,
    (fourDigits n).length = 4 ∧ Text.valueOfDigits? 16 (fourDigits n) = some n := by
  decide +kernel

theorem code_point_escaped (c : Char) (control : Text.isControl c = true) :
    EscapedAs ('u' :: fourDigits c.toNat) c := by
  have small : c.toNat < 128 := by
    simp [Text.isControl] at control
    omega
  obtain ⟨length, value⟩ := four_digits_read c.toNat small
  constructor
  · intro rest
    have front : (fourDigits c.toNat ++ rest).take 4 = fourDigits c.toNat := by
      rw [← length, List.take_left]
    have back : (fourDigits c.toNat ++ rest).drop 4 = rest := by
      rw [← length, List.drop_left]
    have enough : ¬ (fourDigits c.toNat ++ rest).length < 4 := by
      rw [List.length_append, length]
      omega
    rw [List.cons_append, Text.escaped?, Text.codePoint?, if_neg enough, front, back, value]
    simp [Text.char_of_code_point]
  · intro rest
    exact after_fold_none 'u' _ (by decide) (by decide) (by decide)

-- A character that a basic string can hold as it is.
structure Bare (lines : Bool) (c : Char) : Prop where
  noQuote : c ≠ '"'
  noEscape : c ≠ '\\'
  noControl : (lines = true ∧ c = '\n') ∨ Text.isControl c = false

theorem short_escaped (mark c : Char) (reads : ∀ rest, Text.escaped? (mark :: rest) = some (c, rest))
    (noGap : isGap mark = false) (noFeed : mark ≠ '\n') (noReturn : mark ≠ '\r') : EscapedAs [mark] c :=
  ⟨reads, fun rest => after_fold_none mark rest noGap noFeed noReturn⟩

theorem escape_char_cases (lines : Bool) (c : Char) (noQuote : c ≠ '"') :
    (escapeChar lines c = [c] ∧ Bare lines c) ∨
      ∃ written, escapeChar lines c = '\\' :: written ∧ EscapedAs written c := by
  have short (mark : Char) (plain : (isGap mark || mark == '\n' || mark == '\r') = false)
      (reads : ∀ rest, Text.escaped? (mark :: rest) = some (c, rest)) : EscapedAs [mark] c := by
    simp only [Bool.or_eq_false_iff, beq_eq_false_iff_ne] at plain
    exact short_escaped mark c reads plain.1.1 plain.1.2 plain.2
  by_cases feed : c = '\n'
  · subst feed
    cases lines with
    | true => exact .inl ⟨rfl, by decide, by decide, .inl ⟨rfl, rfl⟩⟩
    | false => exact .inr ⟨['n'], rfl, short 'n' (by decide) fun _ => rfl⟩
  by_cases backspace : c = '\x08'
  · subst backspace
    exact .inr ⟨['b'], rfl, short 'b' (by decide) fun _ => rfl⟩
  by_cases tab : c = '\t'
  · subst tab
    exact .inr ⟨['t'], rfl, short 't' (by decide) fun _ => rfl⟩
  by_cases formFeed : c = '\x0c'
  · subst formFeed
    exact .inr ⟨['f'], rfl, short 'f' (by decide) fun _ => rfl⟩
  by_cases carriageReturn : c = '\r'
  · subst carriageReturn
    exact .inr ⟨['r'], rfl, short 'r' (by decide) fun _ => rfl⟩
  by_cases backslash : c = '\\'
  · subst backslash
    exact .inr ⟨['\\'], rfl, short '\\' (by decide) fun _ => rfl⟩
  by_cases control : Text.isControl c = true
  · refine .inr ⟨'u' :: fourDigits c.toNat, ?_, code_point_escaped c control⟩
    simp [escapeChar, feed, backspace, tab, formFeed, carriageReturn, backslash, control, fourDigits]
  · rw [Bool.not_eq_true] at control
    refine .inl ⟨?_, noQuote, backslash, .inr control⟩
    simp [escapeChar, feed, backspace, tab, formFeed, carriageReturn, backslash, control]

theorem quote_escaped : EscapedAs ['"'] '"' :=
  short_escaped '"' '"' (fun _ => rfl) (by decide) (by decide) (by decide)

section Basic

variable (fuel : Nat) (c : Char) (t found rest : Text)

theorem basic_rest_bare (bare : Bare false c) (later : basicRest? fuel t = some (found, rest)) :
    basicRest? (fuel + 1) (c :: t) = some (c :: found, rest) := by
  have noControl : Text.isControl c = false := by
    rcases bare.noControl with ⟨lines, -⟩ | noControl
    · cases lines
    · exact noControl
  simp [basicRest?, bare.noQuote, bare.noEscape, noControl, later]

theorem basic_rest_escaped (written : Text) (escaped : EscapedAs written c)
    (later : basicRest? fuel t = some (found, rest)) :
    basicRest? (fuel + 1) ('\\' :: (written ++ t)) = some (c :: found, rest) := by
  simp [basicRest?, escaped.reads, later]

end Basic

theorem escape_quote_line (run : Nat) (s : Text) :
    escape false run ('"' :: s) = '\\' :: (['"'] ++ escape false 0 s) := by
  simp [escape]

theorem escape_other (lines : Bool) (run : Nat) (c : Char) (s : Text) (noQuote : c ≠ '"') :
    escape lines run (c :: s) = escapeChar lines c ++ escape lines 0 s := by
  rw [escape, if_neg noQuote]

theorem basic_rest_escape (run : Nat) (s rest : Text) (fuel : Nat)
    (enough : (escape false run s).length < fuel) :
    basicRest? fuel (escape false run s ++ '"' :: rest) = some (s, rest) := by
  induction s generalizing run fuel with
  | nil =>
      obtain ⟨fuel, rfl⟩ := Nat.exists_eq_succ_of_ne_zero (Nat.ne_zero_of_lt enough)
      simp [escape, basicRest?]
  | cons c s ih =>
      obtain ⟨fuel, rfl⟩ := Nat.exists_eq_succ_of_ne_zero (Nat.ne_zero_of_lt enough)
      by_cases quote : c = '"'
      · subst quote
        rw [escape_quote_line] at enough ⊢
        have later := ih 0 fuel (by simp only [List.length_cons, List.length_append] at enough; omega)
        rw [List.cons_append, List.append_assoc]
        exact basic_rest_escaped fuel '"' _ s rest ['"'] quote_escaped later
      · rw [escape_other false run c s quote] at enough ⊢
        rcases escape_char_cases false c quote with ⟨same, bare⟩ | ⟨written, shape, escaped⟩
        · rw [same] at enough ⊢
          have later := ih 0 fuel (by simp only [List.length_append, List.length_singleton] at enough; omega)
          exact basic_rest_bare fuel c _ s rest bare later
        · rw [shape] at enough ⊢
          have later := ih 0 fuel (by simp only [List.length_cons, List.length_append] at enough; omega)
          rw [List.cons_append, List.cons_append, List.append_assoc]
          exact basic_rest_escaped fuel c _ s rest written escaped later

theorem take_while_stops (keep : Char → Bool) (s : Text) (stop : Char) (rest : Text)
    (kept : ∀ c ∈ s, keep c = true) (stops : keep stop = false) :
    (s ++ stop :: rest).takeWhile keep = s := by
  rw [List.takeWhile_append_of_pos kept, List.takeWhile_cons_of_neg (by simp [stops]), List.append_nil]

theorem literal_rest_whole (s rest : Text) (noQuote : '\'' ∉ s)
    (noControl : ∀ c ∈ s, Text.isControl c = false) :
    literalRest? (s ++ '\'' :: rest) = some (s, rest) := by
  have found : (s ++ '\'' :: rest).takeWhile (fun c => c ≠ '\'' && !Text.isControl c) = s := by
    apply take_while_stops
    · intro c member
      have other : c ≠ '\'' := fun same => noQuote (same ▸ member)
      simp [other, noControl c member]
    · decide
  rw [literalRest?, found, List.drop_left]
  rfl

-- The inside of a string on several lines that may have begun with a run of its quotes: what is
-- written, and what it means. No run has more than two quotes.
inductive Inside (quote : Char) (escapes : Bool) : Nat → Text → Text → Prop
  | nil (run : Nat) : Inside quote escapes run [] []
  | quote (run : Nat) (written s : Text) : run < 2 → Inside quote escapes (run + 1) written s →
      Inside quote escapes run (quote :: written) (quote :: s)
  | bare (run : Nat) (c : Char) (written s : Text) : c ≠ quote → (escapes = true → c ≠ '\\') →
      (c = '\n' ∨ Text.isControl c = false) → Inside quote escapes 0 written s →
      Inside quote escapes run (c :: written) (c :: s)
  | escaped (run : Nat) (front : Text) (c : Char) (written s : Text) : escapes = true →
      EscapedAs front c → Inside quote escapes 0 written s →
      Inside quote escapes run ('\\' :: (front ++ written)) (c :: s)

section Lines

variable (quote : Char) (escapes : Bool)

theorem quote_run_length (run : Nat) (t : Text) (stops : t.head? ≠ some quote) :
    ((List.replicate run quote ++ t).takeWhile (· = quote)).length = run := by
  induction run with
  | zero =>
      cases t with
      | nil => rfl
      | cons c t =>
          have other : c ≠ quote := fun same => stops (same ▸ rfl)
          simp [other]
  | succ run ih => simpa [List.replicate_succ] using ih

-- One or two quotes belong to the string, and the reader goes on behind them.
theorem lines_rest_after_quotes (run need : Nat) (few : run ≤ 2) (t found rest : Text)
    (stops : t.head? ≠ some quote)
    (later : ∀ fuel, need < fuel → linesRest? quote escapes fuel t = some (found, rest)) :
    ∀ fuel, need + run < fuel →
      linesRest? quote escapes fuel (List.replicate run quote ++ t) =
        some (List.replicate run quote ++ found, rest) := by
  intro fuel enough
  cases run with
  | zero => exact later fuel enough
  | succ run =>
      obtain ⟨fuel, rfl⟩ := Nat.exists_eq_succ_of_ne_zero (Nat.ne_zero_of_lt enough)
      have read := later fuel (by omega)
      have length := quote_run_length quote (run + 1) t stops
      rw [List.replicate_succ, List.cons_append] at length ⊢
      have inner : quoteRun quote (quote :: (List.replicate run quote ++ t)) = (run + 1, false) := by
        rw [quoteRun, length, if_pos (by omega)]
      have behind : (quote :: (List.replicate run quote ++ t)).drop (run + 1) = t := by
        rw [List.drop_succ_cons, List.drop_left' List.length_replicate]
      rw [linesRest?, if_pos rfl, inner]
      simp only [Bool.false_eq_true, if_false, behind, read, Option.bind_eq_bind, Option.bind_some]
      rfl

theorem lines_rest_end (run : Nat) (few : run ≤ 2) (rest : Text) (stops : rest.head? ≠ some quote)
    (fuel : Nat) :
    linesRest? quote escapes (fuel + 1) (List.replicate (run + 3) quote ++ rest) =
      some (List.replicate run quote, rest) := by
  have length := quote_run_length quote (run + 3) rest stops
  have behind : (List.replicate (run + 3) quote ++ rest).drop (run + 3) = rest :=
    List.drop_left' List.length_replicate
  rw [List.replicate_succ, List.cons_append] at length behind ⊢
  have ends : quoteRun quote (quote :: (List.replicate (run + 2) quote ++ rest)) = (run, true) := by
    rw [quoteRun, length, if_neg (by omega)]
    congr 1
    omega
  rw [linesRest?, if_pos rfl, ends]
  simp only [if_true, behind]

theorem after_line_end_none (c : Char) (t : Text) (noFeed : c ≠ '\n') (noControl : Text.isControl c = false) :
    afterLineEnd? (c :: t) = none := by
  have noReturn : c ≠ '\r' := by
    rintro rfl
    cases noControl
  simp [afterLineEnd?, noFeed, noReturn]

theorem lines_rest_bare (c : Char) (t found rest : Text) (fuel : Nat) (noQuote : c ≠ quote)
    (noEscape : escapes = true → c ≠ '\\') (noControl : c = '\n' ∨ Text.isControl c = false)
    (later : linesRest? quote escapes fuel t = some (found, rest)) :
    linesRest? quote escapes (fuel + 1) (c :: t) = some (c :: found, rest) := by
  have unescaped : (escapes && c == '\\') = false := by
    cases escapes with
    | false => rfl
    | true => simp [noEscape rfl]
  by_cases feed : c = '\n'
  · subst feed
    simp [linesRest?, noQuote, afterLineEnd?, later]
  · have plain := noControl.resolve_left feed
    simp only [linesRest?, if_neg noQuote, unescaped, after_line_end_none c t feed plain, plain, later,
      Bool.false_eq_true, if_false]
    rfl

theorem lines_rest_escaped (front : Text) (c : Char) (t found rest : Text) (fuel : Nat)
    (other : quote ≠ '\\') (escaped : EscapedAs front c)
    (later : linesRest? quote true fuel t = some (found, rest)) :
    linesRest? quote true (fuel + 1) ('\\' :: (front ++ t)) = some (c :: found, rest) := by
  simp [linesRest?, other.symm, escaped.stays, escaped.reads, later]

theorem lines_rest_inside (other : quote ≠ '\\') (run : Nat) (written s rest : Text)
    (inside : Inside quote escapes run written s) (few : run ≤ 2) (stops : rest.head? ≠ some quote) :
    ∀ fuel, written.length + run < fuel →
      linesRest? quote escapes fuel
          (List.replicate run quote ++ (written ++ (List.replicate 3 quote ++ rest))) =
        some (List.replicate run quote ++ s, rest) := by
  induction inside with
  | nil run =>
      intro fuel enough
      obtain ⟨fuel, rfl⟩ := Nat.exists_eq_succ_of_ne_zero (Nat.ne_zero_of_lt enough)
      have ends := lines_rest_end quote escapes run few rest stops fuel
      rw [← List.replicate_append_replicate, List.append_assoc] at ends
      rw [List.nil_append, List.append_nil]
      exact ends
  | quote run written s fewer _ ih =>
      intro fuel enough
      have longer := ih (by omega) fuel (by simp only [List.length_cons] at enough; omega)
      rw [List.replicate_succ', List.append_assoc, List.append_assoc] at longer
      exact longer
  | bare run c written s noQuote noEscape noControl _ ih =>
      intro fuel enough
      apply lines_rest_after_quotes quote escapes run (written.length + 1) few
      · simpa using noQuote
      · intro fuel enough
        obtain ⟨fuel, rfl⟩ := Nat.exists_eq_succ_of_ne_zero (Nat.ne_zero_of_lt enough)
        exact lines_rest_bare quote escapes c _ s rest fuel noQuote noEscape noControl
          (ih (by omega) fuel (by omega))
      · exact enough
  | escaped run front c written s on escaped _ ih =>
      intro fuel enough
      subst on
      apply lines_rest_after_quotes quote true run (written.length + 1) few
      · simpa using other.symm
      · intro fuel enough
        obtain ⟨fuel, rfl⟩ := Nat.exists_eq_succ_of_ne_zero (Nat.ne_zero_of_lt enough)
        rw [List.cons_append, List.append_assoc]
        exact lines_rest_escaped quote front c _ s rest fuel other escaped (ih (by omega) fuel (by omega))
      · simp only [List.length_cons, List.length_append] at enough
        omega

-- The line feed that is written in front of several lines is taken off again; where there is none,
-- none is taken for one.
theorem inside_starts (run : Nat) (written s rest : Text) (inside : Inside quote escapes run written s)
    (noFeed : '\n' ∉ s) (plain : quote ≠ '\n' ∧ Text.isControl quote = false) :
    afterLineEnd? (written ++ (List.replicate 3 quote ++ rest)) = none := by
  cases inside with
  | nil => exact after_line_end_none quote _ plain.1 plain.2
  | quote => exact after_line_end_none quote _ plain.1 plain.2
  | bare _ c _ s _ _ noControl _ =>
      have other : c ≠ '\n' := fun same => noFeed (same ▸ List.mem_cons_self)
      exact after_line_end_none c _ other (noControl.resolve_left other)
  | escaped => rfl

theorem lines_inside (plain : quote ≠ '\n' ∧ Text.isControl quote = false) (other : quote ≠ '\\')
    (written s rest : Text) (inside : Inside quote escapes 0 written s) (stops : rest.head? ≠ some quote) :
    lines? quote escapes (leadIn s ++ (written ++ (List.replicate 3 quote ++ rest))) = some (s, rest) := by
  have started : (afterLineEnd? (leadIn s ++ (written ++ (List.replicate 3 quote ++ rest)))).getD
      (leadIn s ++ (written ++ (List.replicate 3 quote ++ rest))) =
        written ++ (List.replicate 3 quote ++ rest) := by
    by_cases feed : s.contains '\n' = true
    · rw [leadIn, if_pos feed]
      rfl
    · rw [leadIn, if_neg feed, List.nil_append,
        inside_starts quote escapes 0 written s rest inside (by simpa using feed) plain]
      rfl
  simp only [lines?, started]
  have read := lines_rest_inside quote escapes other 0 written s rest inside (by omega) stops
  exact read _ (by simp only [List.length_append]; omega)

end Lines

theorem escape_inside (run : Nat) (s : Text) (few : run ≤ 2) : Inside '"' true run (escape true run s) s := by
  induction s generalizing run with
  | nil => exact .nil run
  | cons c s ih =>
      by_cases quote : c = '"'
      · subst quote
        by_cases fewer : run < 2
        · have shape : escape true run ('"' :: s) = '"' :: escape true (run + 1) s := by
            simp [escape, fewer]
          rw [shape]
          exact .quote run _ s fewer (ih (run + 1) fewer)
        · have shape : escape true run ('"' :: s) = '\\' :: (['"'] ++ escape true 0 s) := by
            simp [escape, fewer]
          rw [shape]
          exact .escaped run ['"'] '"' _ s rfl quote_escaped (ih 0 (by omega))
      · rw [escape_other true run c s quote]
        rcases escape_char_cases true c quote with ⟨same, bare⟩ | ⟨front, shape, escaped⟩
        · rw [same]
          exact .bare run c _ s quote (fun _ => bare.noEscape) (bare.noControl.imp_left And.right)
            (ih 0 (by omega))
        · rw [shape]
          exact .escaped run front c _ s rfl escaped (ih 0 (by omega))

theorem longest_run_grows (quote : Char) (s : Text) (run : Nat × Nat) :
    run.2 ≤ (s.foldl (lengthenRun quote) run).2 := by
  induction s generalizing run with
  | nil => exact Nat.le_refl _
  | cons c s ih =>
      have grows : run.2 ≤ (lengthenRun quote run c).2 := by
        unfold lengthenRun
        split
        · exact Nat.le_max_left _ _
        · exact Nat.le_refl _
      exact Nat.le_trans grows (ih _)

theorem literal_inside (quote : Char) (run best : Nat) (s : Text)
    (few : (s.foldl (lengthenRun quote) (run, best)).2 ≤ 2)
    (noControl : ∀ c ∈ s, c = '\n' ∨ Text.isControl c = false) : Inside quote false run s s := by
  induction s generalizing run best with
  | nil => exact .nil run
  | cons c s ih =>
      have later := fun d member => noControl d (List.mem_cons_of_mem c member)
      rw [List.foldl_cons] at few
      by_cases same : c = quote
      · rw [lengthenRun, if_pos same] at few
        have longest := longest_run_grows quote s (run + 1, max best (run + 1))
        have fewer : run < 2 := by
          dsimp only at longest few
          omega
        rw [same]
        exact .quote run s s fewer (ih (run + 1) _ few later)
      · rw [lengthenRun, if_neg same] at few
        exact .bare run c s s same (by simp) (noControl c List.mem_cons_self) (ih 0 _ few later)

theorem control_cases (s : Text) (plain : s.any isEscapedControl = false) :
    ∀ c ∈ s, c = '\n' ∨ Text.isControl c = false := by
  intro c member
  have here : isEscapedControl c = false := by
    rw [List.any_eq_false] at plain
    exact Bool.not_eq_true _ ▸ plain c member
  by_cases feed : c = '\n'
  · exact .inl feed
  · simpa [isEscapedControl, feed] using here

-- What the choice of a form without escapes says about the string.
theorem form_cases (s : Text) :
    (formOf s = .literal → s.any isEscapedControl = false ∧ '\n' ∉ s ∧ '\'' ∉ s) ∧
      (formOf s = .literalLines → s.any isEscapedControl = false ∧ longestRun '\'' s ≤ 2) := by
  unfold formOf
  grind

theorem form_literal (s : Text) (form : formOf s = .literal) :
    '\'' ∉ s ∧ ∀ c ∈ s, Text.isControl c = false := by
  obtain ⟨noControl, noFeed, noQuote⟩ := (form_cases s).1 form
  refine ⟨noQuote, ?_⟩
  intro c member
  exact (control_cases s noControl c member).resolve_left fun feed => noFeed (feed ▸ member)

theorem form_literal_lines (s : Text) (form : formOf s = .literalLines) : Inside '\'' false 0 s s := by
  obtain ⟨noControl, few⟩ := (form_cases s).2 form
  exact literal_inside '\'' 0 0 s few (control_cases s noControl)

theorem string_one_quote (quote : Char) (t : Text) (single : ¬ [quote, quote] <+: t)
    (known : quote = '"' ∨ quote = '\'') : string? (quote :: t) = lineString? (quote :: t) := by
  unfold string?
  split
  · rename_i same
    obtain ⟨rfl, rfl⟩ := List.cons.inj same
    exact absurd ⟨_, rfl⟩ single
  · rename_i same
    obtain ⟨rfl, rfl⟩ := List.cons.inj same
    exact absurd ⟨_, rfl⟩ single
  · rfl

theorem escape_starts (s : Text) : (escape false 0 s).head? ≠ some '"' := by
  cases s with
  | nil => simp [escape]
  | cons c s =>
      by_cases quote : c = '"'
      · subst quote
        simp [escape]
      · rw [escape_other false 0 c s quote]
        rcases escape_char_cases false c quote with ⟨same, bare⟩ | ⟨written, shape, -⟩
        · simpa [same] using quote
        · simp [shape]

-- A quote and a line end, or another character and a quote: there are no two quotes.
theorem one_quote (quote : Char) (inner rest : Text) (starts : inner.head? ≠ some quote)
    (other : quote ≠ '\n') : ¬ [quote, quote] <+: inner ++ quote :: '\n' :: rest := by
  cases inner with
  | nil => simp [other]
  | cons c inner =>
      intro front
      exact starts (congrArg some (List.cons_prefix_cons.mp front).1.symm)

-- Behind the string the line ends.
theorem string_write (s rest : Text) : string? (writeString s ++ '\n' :: rest) = some (s, '\n' :: rest) := by
  cases form : formOf s with
  | basic =>
      have single := one_quote '"' (escape false 0 s) rest (escape_starts s) (by decide)
      have read := basic_rest_escape 0 s ('\n' :: rest)
        ((escape false 0 s ++ '"' :: '\n' :: rest).length + 1) (by
          rw [List.length_append]
          omega)
      simp only [writeString, form, List.append_assoc]
      exact (string_one_quote '"' _ single (.inl rfl)).trans read
  | literal =>
      obtain ⟨noQuote, noControl⟩ := form_literal s form
      have single := one_quote '\'' s rest (fun first => noQuote (List.mem_of_mem_head? first)) (by decide)
      simp only [writeString, form, List.append_assoc]
      exact (string_one_quote '\'' _ single (.inr rfl)).trans
        (literal_rest_whole s ('\n' :: rest) noQuote noControl)
  | basicLines =>
      simp only [writeString, form, List.append_assoc]
      exact lines_inside '"' true (by decide) (by decide) _ s _ (escape_inside 0 s (by omega)) (by simp)
  | literalLines =>
      simp only [writeString, form, List.append_assoc]
      exact lines_inside '\'' false (by decide) (by decide) _ s _ (form_literal_lines s form) (by simp)

end OrderOfGrowth.Toml
