import OrderOfGrowth.Proofs.LineEnds
import OrderOfGrowth.Proofs.Scan.Depth

/-!
Nested loops laid out line by line: a header, the lines of the body, a closing brace. A scan that comes
to such a loop leaves it as deep as it was, and has counted the loop and all within it (`fold_item`). So
the scan of a forest of loops finds its size and its height (`forest_measured`).
-/

set_option autoImplicit false

namespace OrderOfGrowth

namespace Text

inductive LineEnd where
  | feed
  | returnFeed
  deriving DecidableEq, Repr

def LineEnd.text : LineEnd → Text
  | .feed => ['\n']
  | .returnFeed => ['\r', '\n']

-- Lines one behind the other. Each has an end of its own kind, and the last one may have none.
inductive LaidOut : List Text → Text → Prop where
  | nothing : LaidOut [] []
  | last (line : Text) : LaidOut [line] line
  | ended (line : Text) (ending : LineEnd) (lines : List Text) (rest : Text) :
      LaidOut lines rest → LaidOut (line :: lines) (line ++ (ending.text ++ rest))

theorem lines_of_line (line rest : Text) (single : '\n' ∉ line) :
    ∃ shown, EndsAlike shown line ∧ lines (line ++ '\n' :: rest) = shown :: lines rest := by
  induction line with
  | nil => exact ⟨[], .inl rfl, by rw [List.nil_append, lines]⟩
  | cons c line ih =>
      rw [List.mem_cons, not_or] at single
      have plain : c ≠ '\n' := fun same => single.1 same.symm
      by_cases carriage : c = '\r' ∧ line = []
      · obtain ⟨rfl, rfl⟩ := carriage
        exact ⟨[], .inr rfl, by rw [List.singleton_append, lines]⟩
      · have noEnd : ∀ behind, c = '\r' → line ++ '\n' :: rest = '\n' :: behind → False := by
          intro behind same split
          cases line with
          | nil => exact carriage ⟨same, rfl⟩
          | cons d line =>
              obtain ⟨rfl, -⟩ := List.cons.inj split
              exact single.2 List.mem_cons_self
        obtain ⟨shown, alike, read⟩ := ih single.2
        refine ⟨c :: shown, ends_alike_cons c shown line alike, ?_⟩
        rw [List.cons_append, lines.eq_4 c _ plain noEnd, read]

theorem lines_of_last (c : Char) (line : Text) (single : '\n' ∉ c :: line) :
    lines (c :: line) = [c :: line] := by
  induction line generalizing c with
  | nil =>
      have plain : c ≠ '\n' := fun same => single (same ▸ List.mem_cons_self)
      have noEnd : ∀ behind, c = '\r' → [] = '\n' :: behind → False :=
        fun behind _ split => List.cons_ne_nil '\n' behind split.symm
      rw [lines.eq_4 c [] plain noEnd, lines]
  | cons d line ih =>
      rw [List.mem_cons, not_or] at single
      have noEnd : ∀ behind, c = '\r' → d :: line = '\n' :: behind → False := by
        intro behind _ split
        obtain ⟨rfl, -⟩ := List.cons.inj split
        exact single.2 List.mem_cons_self
      rw [lines.eq_4 c (d :: line) (fun same => single.1 same.symm) noEnd, ih d single.2]

end Text

namespace Scan

open Text (LineEnd LaidOut)

theorem step_empty_line (scan : LoopScan) : scan.step [] = scan :=
  rfl

-- A line that is laid out is read as it was written but for a carriage return at its end.
theorem fold_laid_out (rows : List Text) (source : Text) (laidOut : LaidOut rows source)
    (single : ∀ row ∈ rows, '\n' ∉ row) (scan : LoopScan) :
    (Text.lines source).foldl LoopScan.step scan = rows.foldl LoopScan.step scan := by
  induction laidOut generalizing scan with
  | nothing => rfl
  | last line =>
      cases line with
      | nil => exact (step_empty_line scan).symm
      | cons c line => rw [Text.lines_of_last c line (single _ List.mem_cons_self)]
  | ended line ending rows rest _ ih =>
      rw [List.forall_mem_cons] at single
      have behind := ih single.2
      cases ending with
      | feed =>
          obtain ⟨shown, alike, read⟩ := Text.lines_of_line line rest single.1
          rw [LineEnd.text, List.singleton_append, read, List.foldl_cons, List.foldl_cons,
            ← step_ends_alike scan shown line alike, behind]
      | returnFeed =>
          have longer : '\n' ∉ line ++ ['\r'] := by simp [single.1]
          obtain ⟨shown, alike, read⟩ := Text.lines_of_line (line ++ ['\r']) rest longer
          rw [List.append_assoc, List.singleton_append] at read
          rw [LineEnd.text, List.cons_append, List.singleton_append, read, List.foldl_cons,
            List.foldl_cons, ← step_ends_alike scan shown _ alike,
            step_ends_alike scan line _ (.inr rfl), behind]

-- The text of one line, with the weight that it has to have.
structure Row (heft : Int) where
  text : Text
  single : '\n' ∉ text
  weighs : weight text = heft

mutual

inductive Item where
  | filler (row : Row 0)
  | loop (header : Row 1) (body : Forest) (footer : Row (-1))

inductive Forest where
  | nil
  | cons (first : Item) (rest : Forest)

end

mutual

def Item.rows : Item → List Text
  | .filler row => [row.text]
  | .loop header body footer => header.text :: (body.rows ++ [footer.text])

def Forest.rows : Forest → List Text
  | .nil => []
  | .cons first rest => first.rows ++ rest.rows

end

mutual

def Item.loops : Item → Nat
  | .filler _ => 0
  | .loop _ body _ => body.loops + 1

def Forest.loops : Forest → Nat
  | .nil => 0
  | .cons first rest => first.loops + rest.loops

end

mutual

def Item.height : Item → Nat
  | .filler _ => 0
  | .loop _ body _ => body.height + 1

def Forest.height : Forest → Nat
  | .nil => 0
  | .cons first rest => max first.height rest.height

end

mutual

theorem item_rows_single (item : Item) : ∀ row ∈ item.rows, '\n' ∉ row := by
  cases item with
  | filler row => exact List.forall_mem_singleton.mpr row.single
  | loop header body footer =>
      rw [Item.rows, List.forall_mem_cons, List.forall_mem_append, List.forall_mem_singleton]
      exact ⟨header.single, forest_rows_single body, footer.single⟩

theorem forest_rows_single (forest : Forest) : ∀ row ∈ forest.rows, '\n' ∉ row := by
  cases forest with
  | nil => exact List.forall_mem_nil _
  | cons first rest =>
      rw [Forest.rows, List.forall_mem_append]
      exact ⟨item_rows_single first, forest_rows_single rest⟩

end

-- What a line of this weight makes of a scan.
def LoopScan.weighed (scan : LoopScan) (heft : Int) : LoopScan :=
  if heft = 1 then scan.openLevel else if heft = -1 then scan.closeLevel else scan

theorem step_row (heft : Int) (row : Row heft) (scan : LoopScan) : scan.step row.text = scan.weighed heft := by
  rcases step_of_weight scan row.text with ⟨heavy, read⟩ | ⟨heavy, read⟩ | ⟨heavy, read⟩
  all_goals
    rw [read, ← row.weighs, heavy]
    rfl

-- What a scan has become behind loops of this number and height: it is as deep as before.
def LoopScan.passed (scan : LoopScan) (loops height : Nat) : LoopScan :=
  ⟨scan.count + loops, scan.depth, max scan.maxDepth (scan.depth + height)⟩

theorem passed_nothing (scan : LoopScan) (bounded : scan.depth ≤ scan.maxDepth) :
    scan.passed 0 0 = scan := by
  rw [LoopScan.passed, Nat.add_zero, Nat.add_zero, Nat.max_eq_left bounded]

theorem passed_bounded (scan : LoopScan) (loops height : Nat) (bounded : scan.depth ≤ scan.maxDepth) :
    (scan.passed loops height).depth ≤ (scan.passed loops height).maxDepth :=
  Nat.le_trans bounded (Nat.le_max_left _ _)

theorem passed_twice (scan : LoopScan) (loops height more higher : Nat) :
    (scan.passed loops height).passed more higher = scan.passed (loops + more) (max height higher) := by
  simp only [LoopScan.passed, LoopScan.mk.injEq, true_and]
  omega

theorem passed_within (scan : LoopScan) (loops height : Nat) :
    (scan.openLevel.passed loops height).closeLevel = scan.passed (loops + 1) (height + 1) := by
  simp only [LoopScan.passed, LoopScan.openLevel, LoopScan.closeLevel, LoopScan.mk.injEq]
  omega

mutual

theorem fold_item (item : Item) (scan : LoopScan) (bounded : scan.depth ≤ scan.maxDepth) :
    item.rows.foldl LoopScan.step scan = scan.passed item.loops item.height := by
  cases item with
  | filler row =>
      rw [Item.rows, List.foldl_cons, List.foldl_nil, step_row 0 row]
      exact (passed_nothing scan bounded).symm
  | loop header body footer =>
      have opened : scan.openLevel.depth ≤ scan.openLevel.maxDepth := Nat.le_max_right _ _
      rw [Item.rows, List.foldl_cons, List.foldl_append, List.foldl_cons, List.foldl_nil,
        step_row 1 header, fold_forest body (scan.weighed 1) opened, step_row (-1) footer]
      exact passed_within scan body.loops body.height

theorem fold_forest (forest : Forest) (scan : LoopScan) (bounded : scan.depth ≤ scan.maxDepth) :
    forest.rows.foldl LoopScan.step scan = scan.passed forest.loops forest.height := by
  cases forest with
  | nil => exact (passed_nothing scan bounded).symm
  | cons first rest =>
      have further := passed_bounded scan first.loops first.height bounded
      rw [Forest.rows, List.foldl_append, fold_item first scan bounded, fold_forest rest _ further]
      exact passed_twice scan first.loops first.height rest.loops rest.height

end

/-- The scan of a forest of loops counts its loops, and its depth is the height of the forest. -/
theorem forest_measured (forest : Forest) (source : Text) (laidOut : LaidOut forest.rows source) :
    (LoopScan.ofSource source).count = forest.loops ∧
      (LoopScan.ofSource source).maxDepth = forest.height := by
  have scanned : LoopScan.ofSource source = ({} : LoopScan).passed forest.loops forest.height := by
    rw [LoopScan.ofSource, fold_laid_out forest.rows source laidOut (forest_rows_single forest),
      fold_forest forest {} (Nat.le_refl 0)]
  rw [scanned]
  simp [LoopScan.passed]

-- Two loops in one, the second of them empty, with filler in front of them and behind.
def nest : Forest :=
  .cons (.filler ⟨"int n;".toList, by decide, by decide⟩)
    (.cons
      (.loop ⟨"\ufefffor (;;) \x7b \t".toList, by decide, by decide⟩
        (.cons (.loop ⟨"  while".toList, by decide, by decide⟩
            (.cons (.filler ⟨[], by decide, by decide⟩) .nil) ⟨"  \x7d\t".toList, by decide, by decide⟩)
          (.cons (.loop ⟨"forward".toList, by decide, by decide⟩ .nil
              ⟨"\x7d".toList, by decide, by decide⟩) .nil))
        ⟨"\x7d\ufeff".toList, by decide, by decide⟩)
      (.cons (.filler ⟨"\x7d;".toList, by decide, by decide⟩) .nil))

def nestSource : Text :=
  "int n;\n\ufefffor (;;) \x7b \t\r\n  while\n\n  \x7d\t\r\nforward\r\n\x7d\n\x7d\ufeff\n\x7d;".toList

theorem nest_laid_out : LaidOut nest.rows nestSource :=
  .ended _ .feed _ _ (.ended _ .returnFeed _ _ (.ended _ .feed _ _ (.ended _ .feed _ _
    (.ended _ .returnFeed _ _ (.ended _ .returnFeed _ _ (.ended _ .feed _ _
      (.ended _ .feed _ _ (.last _))))))))

theorem nest_measured : LaidOut nest.rows nestSource ∧
    (LoopScan.ofSource nestSource).count = 3 ∧ (LoopScan.ofSource nestSource).maxDepth = 2 :=
  ⟨nest_laid_out, forest_measured nest nestSource nest_laid_out⟩

end Scan

end OrderOfGrowth
