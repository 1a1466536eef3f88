import OrderOfGrowth.Format
import OrderOfGrowth.Proofs.Narration.Legible
import OrderOfGrowth.Proofs.Narration.Verdicts

/-!
Analyses written without colours. No JSON value is printed with an escape character
(`print_unstyled`), and neither is an analysis in any format (`write_unstyled`).
-/

set_option autoImplicit false

namespace OrderOfGrowth

namespace Text

-- A text that no terminal takes for a style: styles are turned on and off behind an escape character.
def Unstyled (s : Text) : Prop :=
  '\x1b' ∉ s

instance (s : Text) : Decidable (Unstyled s) :=
  inferInstanceAs (Decidable ('\x1b' ∉ s))

theorem Unstyled.append {s t : Text} (first : Unstyled s) (second : Unstyled t) : Unstyled (s ++ t) :=
  fun member => (List.mem_append.mp member).elim first second

theorem Unstyled.cons {c : Char} {s : Text} (other : c ≠ '\x1b') (rest : Unstyled s) : Unstyled (c :: s) :=
  fun member => (List.mem_cons.mp member).elim (fun same => other same.symm) rest

theorem unstyled_flat_map {α : Type} (write : α → Text) (items : List α)
    (each : ∀ item ∈ items, Unstyled (write item)) : Unstyled (items.flatMap write) := by
  intro member
  obtain ⟨item, inside, written⟩ := List.mem_flatMap.mp member
  exact each item inside written

theorem unstyled_join (parts : List Text) (each : ∀ part ∈ parts, Unstyled part) :
    Unstyled (joinWith ['\n'] parts) := by
  induction parts using joinWith.induct with
  | case1 => exact List.not_mem_nil
  | case2 part => exact each part List.mem_cons_self
  | case3 part next parts ih =>
      rw [List.forall_mem_cons] at each
      exact (each.1.append (by decide)).append (ih each.2)

theorem Clear.unstyled {s : Text} (clear : Clear s) : Unstyled s := by
  intro member
  have control := clear '\x1b' member
  revert control
  decide

theorem unstyled_decimal (n : Nat) : Unstyled (decimal n) :=
  (clear_decimal n).unstyled

theorem Clear.take {s : Text} (clear : Clear s) (n : Nat) : Clear (s.take n) :=
  fun c member => clear c (List.mem_of_mem_take member)

theorem Clear.drop {s : Text} (clear : Clear s) (n : Nat) : Clear (s.drop n) :=
  fun c member => clear c (List.mem_of_mem_drop member)

theorem clear_positional (digits : Nat) (power : Int) : Clear (Number.Binary64.positional digits power) := by
  have written := clear_decimal digits
  have padded := clear_pad_left (power.natAbs + 1) _ written
  rw [Number.Binary64.positional]
  split
  · exact written.append (clear_zeros _)
  · exact (padded.take _).append (.cons (by decide) (padded.drop _))

theorem clear_point_text (x : Number.Binary64) : Clear x.pointText := by
  have sign : ∀ negative, Clear (Number.Binary64.signText negative) := by
    intro negative
    cases negative <;> decide
  cases x with
  | undefined => decide
  | infinite negative => exact (sign negative).append (by decide)
  | finite negative m e =>
      have written := clear_decimal (Number.Binary64.shortest m e).1
      refine (sign negative).append ?_
      split
      · decide
      dsimp only
      split
      · split
        · exact clear_positional _ _
        · exact (clear_positional _ _).append (by decide)
      · refine ((written.take 1).append ?_).append
          (.cons (by decide) (.cons ?_ (clear_pad_left 2 _ (clear_decimal _))))
        · split
          · decide
          · exact .cons (by decide) (written.drop 1)
        · split <;> decide

end Text

namespace Json

open Text (Unstyled unstyled_decimal)

theorem code_points_unstyled : ∀ n < 32, Unstyled (Text.padLeft '0' 4 (Nat.toDigits 16 n)) := by
  decide

theorem control_escape_unstyled (c : Char) (control : c.toNat < 32) : Unstyled (controlEscape c) := by
  have mark : Unstyled "\\u".toList := by decide
  rw [controlEscape]
  iterate 5
    split
    · decide
  exact mark.append (code_points_unstyled c.toNat control)

theorem escape_char_unstyled (c : Char) : Unstyled (escapeChar c) := by
  rw [escapeChar]
  split
  · decide
  split
  · decide
  split
  · exact control_escape_unstyled c ‹_›
  · rename_i printable
    refine Unstyled.cons ?_ List.not_mem_nil
    rintro rfl
    exact printable (by decide)

theorem print_string_unstyled (s : Text) : Unstyled (printString s) := by
  have quote : Unstyled ['"'] := by decide
  exact (quote.append (Text.unstyled_flat_map escapeChar s fun c _ => escape_char_unstyled c)).append quote

theorem new_line_unstyled (level : Nat) : Unstyled (newLine level) := by
  refine Unstyled.cons (by decide) fun member => ?_
  have blank := List.eq_of_mem_replicate member
  revert blank
  decide

theorem signed_decimal_unstyled (z : Int) : Unstyled (Text.signedDecimal z) := by
  rw [Text.signedDecimal]
  split
  · exact Unstyled.cons (by decide) (unstyled_decimal _)
  · exact unstyled_decimal _

mutual

theorem print_unstyled (value : Json) (level : Nat) : Unstyled (print level value) := by
  have line := new_line_unstyled level
  have inner := new_line_unstyled (level + 1)
  cases value with
  | null => rw [print]; decide
  | bool b => cases b <;> (rw [print]; decide)
  | integer z => rw [print]; exact signed_decimal_unstyled z
  | float x => rw [print]; exact (Text.clear_point_text x).unstyled
  | string s => rw [print]; exact print_string_unstyled s
  | array items =>
      cases items with
      | nil => rw [print]; decide
      | cons item items =>
          have opening : Unstyled ['['] := by decide
          rw [print]
          exact ((((opening.append inner).append (print_unstyled item (level + 1))).append
            (print_items_unstyled items (level + 1))).append line).append (by decide)
  | object members =>
      cases members with
      | nil => rw [print]; decide
      | cons member members =>
          obtain ⟨name, value⟩ := member
          have opening : Unstyled ['{'] := by decide
          have colon : Unstyled ": ".toList := by decide
          rw [print]
          exact ((((((opening.append inner).append (print_string_unstyled name)).append colon).append
            (print_unstyled value (level + 1))).append (print_members_unstyled members (level + 1))).append
            line).append (by decide)

theorem print_items_unstyled (items : List Json) (level : Nat) : Unstyled (printItems level items) := by
  cases items with
  | nil => rw [printItems]; decide
  | cons item items =>
      have comma : Unstyled [','] := by decide
      rw [printItems]
      exact ((comma.append (new_line_unstyled level)).append (print_unstyled item level)).append
        (print_items_unstyled items level)

theorem print_members_unstyled (members : List (Text × Json)) (level : Nat) :
    Unstyled (printMembers level members) := by
  cases members with
  | nil => rw [printMembers]; decide
  | cons member members =>
      obtain ⟨name, value⟩ := member
      have comma : Unstyled [','] := by decide
      have colon : Unstyled ": ".toList := by decide
      rw [printMembers]
      exact ((((comma.append (new_line_unstyled level)).append (print_string_unstyled name)).append colon).append
        (print_unstyled value level)).append (print_members_unstyled members level)

end

end Json

namespace Narration

theorem line_unstyled (line : Line) (legible : line.Legible) : Text.Unstyled line.shown := by
  rw [Line.shown]
  split
  · exact Text.Unstyled.cons (by decide) legible.clear.unstyled
  · exact legible.clear.unstyled

theorem to_text_unstyled (lines : List Line) (legible : ∀ line ∈ lines, line.Legible) :
    Text.Unstyled (toText lines) := by
  apply Text.unstyled_join
  intro shown member
  obtain ⟨line, inside, rfl⟩ := List.mem_map.mp member
  exact line_unstyled line (legible line inside)

end Narration

namespace Analysis

open Text (Unstyled unstyled_decimal)

theorem write_line_unstyled (line : Line) (legible : line.Legible) : Unstyled (writeLine false line) := by
  have ending : Unstyled ['\n'] := by decide
  have front : Unstyled (if line.opensSection then ['\n'] else []) := by
    split <;> decide
  exact (front.append legible.clear.unstyled).append ending

theorem table_row_unstyled (label value : Text) (first : Unstyled label) (second : Unstyled value) :
    Unstyled (tableRow label value) := by
  have bar : Unstyled "| ".toList := by decide
  have between : Unstyled " | ".toList := by decide
  exact (((bar.append first).append between).append second).append (by decide)

theorem yes_no_unstyled (b : Bool) : Unstyled (yesNo b) := by
  cases b <;> decide

theorem recursion_cell_unstyled (signals : Signals) (consistent : signals.Consistent) :
    Unstyled (recursionCell signals.recursion) := by
  cases found : signals.recursion with
  | none => decide
  | some recursion =>
      have name := Text.clear_name (consistent.recursion recursion found).2.1
      have mark : Unstyled "`".toList := by decide
      have between : Unstyled "` (".toList := by decide
      exact (((mark.append name.unstyled).append between).append (unstyled_decimal _)).append (by decide)

theorem signal_table_unstyled (signals : Signals) (consistent : signals.Consistent) :
    Unstyled (signalTable signals) := by
  have row := fun (label value : Text) (first : Unstyled label) (second : Unstyled value) =>
    table_row_unstyled label value first second
  exact ((((((row _ _ (by decide) (by decide)).append (row _ _ (by decide) (by decide))).append
    (row _ _ (by decide) (unstyled_decimal _))).append (row _ _ (by decide) (unstyled_decimal _))).append
    (row _ _ (by decide) (recursion_cell_unstyled signals consistent))).append
    (row _ _ (by decide) (yes_no_unstyled _))).append (row _ _ (by decide) (yes_no_unstyled _))

theorem narrated_unstyled (signals : Signals) (consistent : signals.Consistent) (format : Format) :
    Unstyled ((narrated signals).write format false) := by
  have legible := Narration.lines_legible signals consistent
  have text := Narration.to_text_unstyled _ legible
  cases format with
  | text => exact Text.unstyled_flat_map _ _ fun line member => write_line_unstyled line (legible line member)
  | json =>
      have ending : Unstyled ['\n'] := by decide
      exact (Json.print_unstyled _ 0).append ending
  | markdown =>
      have title : Unstyled "# Complexity Analysis\n\n".toList := by decide
      have heading : Unstyled "\n## Narration\n\n```text\n".toList := by decide
      have table := signal_table_unstyled signals consistent
      exact title.append (((table.append heading).append text).append (by decide))

/-- Without colours nothing that is written of an analysis has an escape character in it. -/
theorem write_unstyled (format : Format) (source : Text) : Unstyled ((ofSource source).write format false) := by
  rw [ofSource]
  split
  · cases format with
    | text => decide
    | json => exact (Json.print_unstyled _ 0).append (t := ['\n']) (by decide)
    | markdown => decide
  · exact narrated_unstyled _ (Signals.consistent_source source) format

end Analysis

end OrderOfGrowth
