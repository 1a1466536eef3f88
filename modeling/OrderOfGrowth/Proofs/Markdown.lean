import OrderOfGrowth.Format
import OrderOfGrowth.Proofs.Margins
import OrderOfGrowth.Proofs.Narration.Faithful

/-!
Analyses written as Markdown, and read back line by line. What comes from the source into a cell has no bar,
no back quote and no line feed in it (`recursion_cell_read`), and no line of a narration starts like a
row or a fence (`narration_unmarked`), so the table gives the signals back and the block the text.
-/

set_option autoImplicit false

namespace OrderOfGrowth

namespace Text

theorem trim_padded (s : Text) (starts : s.head? ≠ some ' ') (ends : s.getLast? ≠ some ' ') :
    trimBy (· == ' ') (' ' :: (s ++ [' '])) = s := by
  have blank : ∀ c ∈ [' '], (c == ' ') = true := List.forall_mem_singleton.mpr rfl
  have around := trim_by_around (· == ' ') [' '] s [' '] blank blank
  refine around.trans (trim_by_self _ s ?_ ?_)
  · intro c first
    exact beq_eq_false_iff_ne.mpr fun same => starts (same ▸ first)
  · intro c last
    exact beq_eq_false_iff_ne.mpr fun same => ends (same ▸ last)

theorem natural_decimal (n : Nat) : natural? (decimal n) = some n := by
  have digits : (decimal n).all Char.isDigit = true := List.all_eq_true.mpr (decimal_digits n)
  simp [natural?, decimal_ne_nil n, digits, value_of_decimal]

end Text

namespace Markdown

open Text (decimal natural?)

def fence : Text :=
  "```".toList

def isFence (line : Text) : Bool :=
  (Text.after? fence line).isSome

def isRow (line : Text) : Bool :=
  (Text.after? ['|'] line).isSome

-- The cells of a row: what is between its bars, without the blanks on both sides.
def cells (row : Text) : List Text :=
  ((Text.splitOn '|' row).drop 1).dropLast.map (Text.trimBy (· == ' '))

def flag? (cell : Text) : Option Bool :=
  if cell = "Yes".toList then some true else if cell = "No".toList then some false else none

-- A name between back quotes, and a number of calls in parentheses.
def recursion? (cell : Text) : Option (Option Scan.Recursion) :=
  if cell = "-".toList then some none
  else do
    let quoted ← Text.after? "`".toList cell
    let name := quoted.takeWhile (· != '`')
    let calls ← Text.after? "` (".toList (quoted.drop name.length)
    let digits := calls.takeWhile Char.isDigit
    if calls.drop digits.length = " calls)".toList then (natural? digits).map fun count => some ⟨name, count⟩
    else none

-- The signals of the five rows behind the head of a table and the line under it.
def signals? (lines : List Text) : Option Signals :=
  match ((lines.filter isRow).map cells).drop 2 with
  | [[_, loops], [_, depth], [_, recursion], [_, binary], [_, linear]] => do
    let loopCount ← natural? loops
    let loopDepth ← natural? depth
    let recursion ← recursion? recursion
    let isBinarySearch ← flag? binary
    let isLinearSearch ← flag? linear
    pure { loopCount, loopDepth, recursion, isBinarySearch, isLinearSearch }
  | _ => none

-- The first fenced block: what stands behind its opening fence, its lines, and what is left from the
-- fence that closes it.
def block? : List Text → Option (Text × List Text × List Text)
  | [] => none
  | line :: lines =>
    match Text.after? fence line with
    | some info => some (info, lines.takeWhile (· ≠ fence), lines.dropWhile (· ≠ fence))
    | none => block? lines

-- What can be a cell of a row as it stands.
structure Plain (cell : Text) : Prop where
  single : '\n' ∉ cell
  undivided : '|' ∉ cell
  starts : cell.head? ≠ some ' '
  ends : cell.getLast? ≠ some ' '

instance (cell : Text) : Decidable (Plain cell) :=
  decidable_of_iff ('\n' ∉ cell ∧ '|' ∉ cell ∧ cell.head? ≠ some ' ' ∧ cell.getLast? ≠ some ' ')
    ⟨fun ⟨single, undivided, starts, ends⟩ => ⟨single, undivided, starts, ends⟩,
      fun ⟨single, undivided, starts, ends⟩ => ⟨single, undivided, starts, ends⟩⟩

-- A row without its line end.
def row (label value : Text) : Text :=
  "| ".toList ++ label ++ " | ".toList ++ value ++ " |".toList

theorem row_ended (label value : Text) : Analysis.tableRow label value = row label value ++ ['\n'] := by
  have ending : " |\n".toList = " |".toList ++ ['\n'] := rfl
  rw [Analysis.tableRow, row, ending, ← List.append_assoc]

theorem row_single (label value : Text) (first : Plain label) (second : Plain value) : '\n' ∉ row label value := by
  simp [row, first.single, second.single]

theorem cells_row (label value : Text) (first : Plain label) (second : Plain value) :
    cells (row label value) = [label, value] := by
  have padded : ∀ cell : Text, Plain cell → '|' ∉ ' ' :: (cell ++ [' ']) := by
    intro cell plain
    simp [plain.undivided]
  have trimmed : ∀ cell : Text, Plain cell → Text.trimBy (· == ' ') (' ' :: (cell ++ [' '])) = cell :=
    fun cell plain => Text.trim_padded cell plain.starts plain.ends
  have bars : row label value =
      [] ++ '|' :: ((' ' :: (label ++ [' '])) ++ '|' :: ((' ' :: (value ++ [' '])) ++ '|' :: [])) := by
    simp [row]
  rw [cells, bars, Text.split_on_part '|' _ _ List.not_mem_nil, Text.split_on_part '|' _ _ (padded label first),
    Text.split_on_part '|' _ _ (padded value second)]
  change [Text.trimBy _ _, Text.trimBy _ _] = _
  rw [trimmed label first, trimmed value second]

-- A text of name characters, as a number is and a name.
theorem plain_of_name (cell : Text) (inside : ∀ c ∈ cell, Text.isNameChar c = true) : Plain cell where
  single member := absurd (inside _ member) (by decide)
  undivided member := absurd (inside _ member) (by decide)
  starts first := absurd (inside _ (List.mem_of_head? first)) (by decide)
  ends last := absurd (inside _ (List.mem_of_getLast? last)) (by decide)

theorem decimal_name (n : Nat) : ∀ c ∈ decimal n, Text.isNameChar c = true := by
  intro c member
  simp [Text.isNameChar, Char.isAlphanum, Text.decimal_digits n c member]

theorem yes_no_plain (b : Bool) : Plain (Analysis.yesNo b) := by
  cases b <;> decide

theorem yes_no_read (b : Bool) : flag? (Analysis.yesNo b) = some b := by
  cases b <;> decide

section Recursion

variable (signals : Signals) (consistent : signals.Consistent)

include consistent

theorem recursion_cell_plain : Plain (Analysis.recursionCell signals.recursion) := by
  cases found : signals.recursion with
  | none => decide
  | some recursion =>
      have name := plain_of_name _ (consistent.recursion recursion found).2.1
      have calls := plain_of_name _ (decimal_name recursion.callCount)
      refine ⟨by simp [Analysis.recursionCell, name.single, calls.single],
        by simp [Analysis.recursionCell, name.undivided, calls.undivided],
        by simp [Analysis.recursionCell], ?_⟩
      rw [Analysis.recursionCell, List.getLast?_append_of_ne_nil _ (by decide)]
      decide

-- A name ends at the back quote behind it, since it has none.
theorem recursion_cell_read : recursion? (Analysis.recursionCell signals.recursion) = some signals.recursion := by
  cases found : signals.recursion with
  | none => rfl
  | some recursion =>
      obtain ⟨name, count⟩ := recursion
      have inside := (consistent.recursion _ found).2.1
      dsimp only at inside
      have quoted : Analysis.recursionCell (some ⟨name, count⟩) =
          "`".toList ++ (name ++ "` (".toList ++ (decimal count ++ " calls)".toList)) := by
        simp [Analysis.recursionCell]
      have taken : (name ++ ("` (".toList ++ (decimal count ++ " calls)".toList))).takeWhile (· != '`') = name := by
        have others : ∀ c ∈ name, (c != '`') = true := by
          intro c member
          have inName := inside c member
          rw [bne_iff_ne]
          rintro rfl
          exact absurd inName (by decide)
        rw [List.takeWhile_append_of_pos others]
        exact List.append_nil name
      have digits : (decimal count ++ " calls)".toList).takeWhile Char.isDigit = decimal count := by
        rw [List.takeWhile_append_of_pos (Text.decimal_digits count)]
        exact List.append_nil _
      rw [quoted, recursion?, if_neg (by simp)]
      simp only [List.append_assoc, Text.after_append, Option.bind_eq_bind, Option.bind_some, taken, List.drop_left,
        digits, if_true, Text.natural_decimal, Option.map_some]

end Recursion

def table (signals : Signals) : List (Text × Text) :=
  [("Signal".toList, "Value".toList), ("---".toList, "---".toList),
    ("Loops".toList, decimal signals.loopCount),
    ("Nesting Depth".toList, decimal signals.loopDepth),
    ("Recursion".toList, Analysis.recursionCell signals.recursion),
    ("Binary Search".toList, Analysis.yesNo signals.isBinarySearch),
    ("Linear Search".toList, Analysis.yesNo signals.isLinearSearch)]

def rows (signals : Signals) : List Text :=
  (table signals).map fun entry => row entry.1 entry.2

theorem table_plain (signals : Signals) (consistent : signals.Consistent) :
    ∀ entry ∈ table signals, Plain entry.1 ∧ Plain entry.2 := by
  have number := fun n => plain_of_name _ (decimal_name n)
  simp only [table, List.forall_mem_cons]
  exact ⟨by decide, by decide, ⟨by decide, number _⟩, ⟨by decide, number _⟩,
    ⟨by decide, recursion_cell_plain signals consistent⟩, ⟨by decide, yes_no_plain _⟩,
    ⟨by decide, yes_no_plain _⟩, by simp⟩

theorem table_written (signals : Signals) : Analysis.signalTable signals = (rows signals).flatMap (· ++ ['\n']) := by
  simp only [Analysis.signalTable, row_ended, rows, table, List.map_cons, List.map_nil, List.flatMap_cons,
    List.flatMap_nil, List.append_assoc, List.append_nil]

def title : List Text :=
  ["# Complexity Analysis".toList, []]

def textFence : Text :=
  fence ++ "text".toList

def heading : List Text :=
  [[], "## Narration".toList, []]

theorem written (signals : Signals) :
    (Analysis.narrated signals).writeMarkdown =
      (title ++ (rows signals ++ (heading ++ [textFence]))).flatMap (· ++ ['\n']) ++
        ((Analysis.narrated signals).toText ++ '\n' :: (fence ++ '\n' :: [])) := by
  have parts : (Analysis.narrated signals).writeMarkdown =
      "# Complexity Analysis\n\n".toList ++ (Analysis.signalTable signals ++ "\n## Narration\n\n```text\n".toList ++
        (Analysis.narrated signals).toText ++ "\n```\n".toList) := rfl
  have front : title.flatMap (· ++ ['\n']) = "# Complexity Analysis\n\n".toList := by decide
  have behind : (heading ++ [textFence]).flatMap (· ++ ['\n']) = "\n## Narration\n\n```text\n".toList := by decide
  have ending : '\n' :: (fence ++ '\n' :: []) = "\n```\n".toList := by decide
  rw [parts, List.flatMap_append, List.flatMap_append, front, behind, ending, ← table_written]
  simp only [List.append_assoc]

section Lines

variable (signals : Signals) (consistent : signals.Consistent)

include consistent

theorem written_lines : Text.splitOn '\n' (Analysis.narrated signals).writeMarkdown =
    (title ++ (rows signals ++ heading)) ++
      textFence :: (Text.splitOn '\n' (Analysis.narrated signals).toText ++ [fence, []]) := by
  have single : ∀ line ∈ title ++ (rows signals ++ (heading ++ [textFence])), '\n' ∉ line := by
    rw [List.forall_mem_append, List.forall_mem_append]
    refine ⟨by decide, ?_, by decide⟩
    intro line member
    obtain ⟨entry, inside, rfl⟩ := List.mem_map.mp member
    obtain ⟨first, second⟩ := table_plain signals consistent entry inside
    exact row_single entry.1 entry.2 first second
  rw [written, Text.split_ended '\n' _ _ single, Text.split_on_append, Text.split_on_part '\n' fence [] (by decide)]
  simp [Text.splitOn]

-- A mark with which no line of a narration starts.
theorem mark_unwritten (mark : Text) (marked : mark ≠ [])
    (silent : Narration.told mark (Narration.ofSignals signals) = []) :
    ∀ line ∈ Text.splitOn '\n' (Analysis.narrated signals).toText, Text.after? mark line = none := by
  have legible := Narration.lines_legible signals consistent
  have parts : Text.splitOn '\n' (Analysis.narrated signals).toText =
      (Narration.ofSignals signals).flatMap Line.parts := by
    rw [Analysis.toText]
    cases shape : Narration.ofSignals signals with
    | nil => exact absurd shape (Narration.lines_ne_nil signals)
    | cons first lines =>
        rw [shape] at legible
        exact Narration.split_to_text first lines fun line member => (legible line member).single
  rw [parts]
  intro part member
  obtain ⟨line, inside, isPart⟩ := List.mem_flatMap.mp member
  have absent := List.filterMap_eq_nil_iff.mp silent line inside
  have empty : Text.after? mark [] = none := by
    cases mark with
    | nil => exact absurd rfl marked
    | cons c mark => rfl
  rw [Line.parts] at isPart
  split at isPart
  · rcases List.mem_cons.mp isPart with rfl | isText
    · exact empty
    · rw [List.mem_singleton.mp isText, absent]
  · rw [List.mem_singleton.mp isPart, absent]

theorem narration_unmarked : ∀ line ∈ Text.splitOn '\n' (Analysis.narrated signals).toText,
    isRow line = false ∧ isFence line = false := by
  have silent : ∀ mark : Text, mark = ['|'] ∨ mark = fence →
      Narration.told mark (Narration.ofSignals signals) = [] := by
    rintro mark (rfl | rfl)
    all_goals
      rw [Narration.told_loops _ signals rfl (fun r => Narration.master_case_silent _ r.callCount rfl rfl rfl) rfl]
      unfold Narration.loopLines Narration.loopVerdict Narration.nestingVerdict
      split_ifs <;> rfl
  intro line member
  have bar := mark_unwritten signals consistent ['|'] (by decide) (silent _ (.inl rfl)) line member
  have quotes := mark_unwritten signals consistent fence (by decide) (silent _ (.inr rfl)) line member
  exact ⟨congrArg Option.isSome bar, congrArg Option.isSome quotes⟩

theorem rows_of_lines :
    (Text.splitOn '\n' (Analysis.narrated signals).writeMarkdown).filter isRow = rows signals := by
  have all : (rows signals).filter isRow = rows signals := by
    rw [List.filter_eq_self]
    intro line member
    obtain ⟨entry, -, rfl⟩ := List.mem_map.mp member
    rfl
  have none : (Text.splitOn '\n' (Analysis.narrated signals).toText).filter isRow = [] := by
    rw [List.filter_eq_nil_iff]
    intro line member
    simp [(narration_unmarked signals consistent line member).1]
  have front : title.filter isRow = [] := by decide
  have between : heading.filter isRow = [] := by decide
  have behind : [fence, []].filter isRow = [] := by decide
  rw [written_lines signals consistent, List.filter_append, List.filter_append, List.filter_append, front, all,
    between, List.filter_cons_of_neg (by decide), List.filter_append, none, behind]
  simp

theorem cells_of_rows : (rows signals).map cells = (table signals).map fun entry => [entry.1, entry.2] := by
  rw [rows, List.map_map]
  apply List.map_congr_left
  intro entry member
  obtain ⟨first, second⟩ := table_plain signals consistent entry member
  exact cells_row entry.1 entry.2 first second

theorem signals_read : signals? (Text.splitOn '\n' (Analysis.narrated signals).writeMarkdown) = some signals := by
  have recursion := recursion_cell_read signals consistent
  rw [signals?, rows_of_lines signals consistent, cells_of_rows signals consistent]
  simp only [table, List.map_cons, List.map_nil, List.drop_succ_cons, List.drop_zero, Text.natural_decimal, recursion,
    yes_no_read, Option.bind_eq_bind, Option.bind_some]
  rfl

end Lines

theorem front_unfenced (signals : Signals) : ∀ line ∈ title ++ (rows signals ++ heading), isFence line = false := by
  rw [List.forall_mem_append, List.forall_mem_append]
  refine ⟨by decide, ?_, by decide⟩
  intro line member
  obtain ⟨entry, -, rfl⟩ := List.mem_map.mp member
  rfl

theorem block_found (front : List Text) (info : Text) (rest : List Text)
    (plain : ∀ line ∈ front, isFence line = false) :
    block? (front ++ (fence ++ info) :: rest) =
      some (info, rest.takeWhile (· ≠ fence), rest.dropWhile (· ≠ fence)) := by
  induction front with
  | nil => rw [List.nil_append, block?, Text.after_append]
  | cons line front ih =>
      rw [List.forall_mem_cons, isFence, Option.isSome_eq_false_iff, Option.isNone_iff_eq_none] at plain
      rw [List.cons_append, block?, plain.1]
      exact ih plain.2

-- A block whose lines have no fence in front is closed by the first fence behind it.
theorem block_closed (body behind : List Text) (plain : ∀ line ∈ body, isFence line = false) :
    (body ++ fence :: behind).takeWhile (· ≠ fence) = body ∧
      (body ++ fence :: behind).dropWhile (· ≠ fence) = fence :: behind := by
  have others : ∀ line ∈ body, decide (line ≠ fence) = true := by
    intro line member
    rw [decide_eq_true_eq]
    rintro rfl
    exact absurd (plain fence member) (by decide)
  rw [List.takeWhile_append_of_pos others, List.dropWhile_append_of_pos others]
  exact ⟨by simp, by simp⟩

theorem fences_counted (lines : List Text) (plain : ∀ line ∈ lines, isFence line = false) :
    lines.count textFence = 0 := by
  rw [List.count_eq_zero]
  intro member
  exact absurd (plain textFence member) (by decide)

/-- An analysis written as Markdown is read back: the two cells of each of five rows give the signals, and
the only block, which ends the document, holds the text. For a blank source there is neither. -/
theorem markdown_reads_back (colored : Bool) (source : Text) :
    ((∀ c ∈ source, Text.isMargin c = true) →
      ∀ line ∈ Text.splitOn '\n' ((Analysis.ofSource source).write .markdown colored),
        isRow line = false ∧ isFence line = false) ∧
    ((∃ c ∈ source, Text.isMargin c = false) →
      ∃ signals lines body, Analysis.ofSource source = .narrated signals ∧
        lines = Text.splitOn '\n' ((Analysis.ofSource source).write .markdown colored) ∧
        (∀ line ∈ lines, isRow line = true → (cells line).length = 2) ∧ signals? lines = some signals ∧
        lines.count textFence = 1 ∧ block? lines = some ("text".toList, body, [fence, []]) ∧
        Text.joinWith ['\n'] body = (Analysis.ofSource source).toText) := by
  constructor
  · intro margin
    have blank : Analysis.ofSource source = .blank := (blank_iff source).mpr margin
    rw [blank]
    change ∀ line ∈ Text.splitOn '\n' Analysis.blank.writeMarkdown, _
    decide
  · intro solid
    have consistent := Signals.consistent_source source
    have narrated := Narration.narrated_solid source solid
    rw [narrated]
    generalize Signals.ofSource source = signals at consistent
    have unmarked := narration_unmarked signals consistent
    have parted := written_lines signals consistent
    have closed := block_closed _ [[]] fun line member => (unmarked line member).2
    refine ⟨signals, _, Text.splitOn '\n' (Analysis.narrated signals).toText, rfl, rfl, ?_,
      signals_read signals consistent, ?_, ?_, Text.join_split '\n' _⟩
    · intro line member inTable
      have shown : cells line ∈ (table signals).map fun entry => [entry.1, entry.2] := by
        rw [← cells_of_rows signals consistent, ← rows_of_lines signals consistent]
        exact List.mem_map_of_mem (List.mem_filter.mpr ⟨member, inTable⟩)
      obtain ⟨entry, -, same⟩ := List.mem_map.mp shown
      rw [← same]
      rfl
    · rw [Analysis.write, parted, List.count_append, fences_counted _ (front_unfenced signals), List.count_cons_self,
        List.count_append, fences_counted _ fun line member => (unmarked line member).2]
      decide
    · rw [Analysis.write, parted, textFence, block_found _ _ _ (front_unfenced signals), closed.1, closed.2]

-- A recursion under a loop, with a name that has more than letters in it.
def calledSource : Text :=
  "f_1 (n) \x7b\nwhile (n)\nf_1 (n) \x7d".toList

theorem called_source_reads_back :
    (∀ c ∈ "\ufeff\n ".toList, Text.isMargin c = true) ∧
      (∀ line ∈ Text.splitOn '\n' ((Analysis.ofSource "\ufeff\n ".toList).write .markdown true),
        isRow line = false ∧ isFence line = false) ∧
      (∃ c ∈ calledSource, Text.isMargin c = false) ∧
      signals? (Text.splitOn '\n' ((Analysis.ofSource calledSource).write .markdown false)) =
        some ⟨1, 1, some ⟨"f_1".toList, 2⟩, false, false⟩ := by
  have blank : Text.Margin "\ufeff\n ".toList := by decide
  have solid : ∃ c ∈ calledSource, Text.isMargin c = false := ⟨'f', List.mem_cons_self, by decide⟩
  have found : Signals.ofSource calledSource = ⟨1, 1, some ⟨"f_1".toList, 2⟩, false, false⟩ := by decide +kernel
  obtain ⟨signals, lines, _, narrated, rfl, -, read, -⟩ := (markdown_reads_back false calledSource).2 solid
  obtain rfl := Analysis.narrated.inj (narrated.symm.trans (Narration.narrated_solid calledSource solid))
  exact ⟨blank, (markdown_reads_back true _).1 blank, solid, read.trans (congrArg some found)⟩

end Markdown

end OrderOfGrowth
