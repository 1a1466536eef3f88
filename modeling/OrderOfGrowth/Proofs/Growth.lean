import OrderOfGrowth.Proofs.Scan.Anchoring
import OrderOfGrowth.Proofs.Scan.Depth
import OrderOfGrowth.Proofs.Text.Lines
import OrderOfGrowth.Signals

/-!
Signals of a source that grows. Appended text, which may go on with the last line, takes no signal
back and leaves the anchored function in place; neither do whole lines in front, for all signals
but the recursion (`signals_grow`).
-/

set_option autoImplicit false

namespace OrderOfGrowth

namespace Scan

open Text (Continues WholeLines)

structure Ahead (behind ahead : LoopScan) : Prop where
  count : behind.count ≤ ahead.count
  depth : behind.depth ≤ ahead.depth
  maxDepth : behind.maxDepth ≤ ahead.maxDepth

theorem open_keeps_ahead (behind ahead : LoopScan) (leads : Ahead behind ahead) :
    Ahead behind.openLevel ahead.openLevel := by
  obtain ⟨count, depth, maxDepth⟩ := leads
  refine ⟨?_, ?_, ?_⟩ <;> simp only [LoopScan.openLevel] <;> omega

-- Closing is monotone although it stops at zero.
theorem close_keeps_ahead (behind ahead : LoopScan) (leads : Ahead behind ahead) :
    Ahead behind.closeLevel ahead.closeLevel := by
  obtain ⟨count, depth, maxDepth⟩ := leads
  refine ⟨?_, ?_, ?_⟩ <;> simp only [LoopScan.closeLevel] <;> omega

theorem step_keeps_ahead (behind ahead : LoopScan) (line : Text) (leads : Ahead behind ahead) :
    Ahead (behind.step line) (ahead.step line) := by
  simp only [LoopScan.step]
  by_cases opens : opensLoop (Text.trimMargin line)
  · have closes := opening_line_not_closing _ opens
    simpa [opens, closes] using open_keeps_ahead behind ahead leads
  · by_cases closes : closesLoop (Text.trimMargin line)
    · simpa [opens, closes] using close_keeps_ahead behind ahead leads
    · simpa [opens, closes] using leads

theorem fold_keeps_ahead (lines : List Text) (behind ahead : LoopScan) (leads : Ahead behind ahead) :
    Ahead (lines.foldl LoopScan.step behind) (lines.foldl LoopScan.step ahead) := by
  induction lines generalizing behind ahead with
  | nil => exact leads
  | cons line lines ih => exact ih _ _ (step_keeps_ahead behind ahead line leads)

def Exceeds (less more : LoopScan) : Prop :=
  less.count ≤ more.count ∧ less.maxDepth ≤ more.maxDepth

theorem exceeds_trans (a b c : LoopScan) (first : Exceeds a b) (second : Exceeds b c) :
    Exceeds a c :=
  ⟨first.1.trans second.1, first.2.trans second.2⟩

theorem step_exceeds (scan : LoopScan) (line : Text) : Exceeds scan (scan.step line) := by
  rcases step_of_weight scan line with ⟨_, read⟩ | ⟨_, read⟩ | ⟨_, read⟩ <;> rw [read]
  · exact ⟨Nat.le_succ _, Nat.le_max_left _ _⟩
  · exact ⟨Nat.le_refl _, Nat.le_refl _⟩
  · exact ⟨Nat.le_refl _, Nat.le_refl _⟩

theorem fold_exceeds (lines : List Text) (scan : LoopScan) :
    Exceeds scan (lines.foldl LoopScan.step scan) := by
  induction lines generalizing scan with
  | nil => exact ⟨Nat.le_refl _, Nat.le_refl _⟩
  | cons line lines ih => exact exceeds_trans _ _ _ (step_exceeds scan line) (ih (scan.step line))

theorem opens_loop_continues (last next : Text) (continues : Continues last next)
    (opens : opensLoop (Text.trimMargin last) = true) : opensLoop (Text.trimMargin next) = true := by
  have forInside : ∀ c ∈ "for".toList, Text.isMargin c = false := by
    simp [Text.isMargin, Text.isWhiteSpace]
  have whileInside : ∀ c ∈ "while".toList, Text.isMargin c = false := by
    simp [Text.isMargin, Text.isWhiteSpace]
  rw [opens_loop_iff] at opens ⊢
  cases opens with
  | inl starts =>
      left
      exact Text.word_prefix_continues _ _ _ (by decide) forInside continues starts
  | inr starts =>
      right
      exact Text.word_prefix_continues _ _ _ (by decide) whileInside continues starts

-- The last line counts only if it opens a loop, and then it still does when it goes on.
theorem step_continues (scan : LoopScan) (last next : Text) (continues : Continues last next) :
    Exceeds (scan.step last) (scan.step next) := by
  by_cases opens : opensLoop (Text.trimMargin last)
  · have opensNext := opens_loop_continues last next continues opens
    have closes := opening_line_not_closing _ opens
    have closesNext := opening_line_not_closing _ opensNext
    simp [LoopScan.step, opens, opensNext, closes, closesNext, Exceeds]
  · have same : Exceeds (scan.step last) scan := by
      by_cases closes : closesLoop (Text.trimMargin last) <;>
        simp [LoopScan.step, opens, closes, LoopScan.closeLevel, Exceeds]
    exact exceeds_trans _ _ _ same (step_exceeds scan next)

theorem loops_append (s back : Text) :
    Exceeds (LoopScan.ofSource s) (LoopScan.ofSource (s ++ back)) := by
  rcases Text.lines_append s back with behind | ⟨_, front, last, next, more, before, after, continues⟩
  · rw [LoopScan.ofSource, LoopScan.ofSource, behind, List.foldl_append]
    exact fold_exceeds _ _
  · rw [LoopScan.ofSource, LoopScan.ofSource, before, after, List.foldl_append, List.foldl_append]
    exact exceeds_trans _ _ _ (step_continues _ last next continues) (fold_exceeds more _)

theorem loops_in_front (front s : Text) (whole : WholeLines front) :
    Exceeds (LoopScan.ofSource s) (LoopScan.ofSource (front ++ s)) := by
  rw [LoopScan.ofSource, LoopScan.ofSource, Text.lines_append_whole front s whole, List.foldl_append]
  have start : Ahead {} ((Text.lines front).foldl LoopScan.step {}) :=
    ⟨Nat.zero_le _, Nat.zero_le _, Nat.zero_le _⟩
  have leads := fold_keeps_ahead (Text.lines s) _ _ start
  exact ⟨leads.count, leads.maxDepth⟩

theorem loops_grow (front s back : Text) (whole : WholeLines front) :
    Exceeds (LoopScan.ofSource s) (LoopScan.ofSource (front ++ (s ++ back))) :=
  exceeds_trans _ _ _ (loops_append s back) (loops_in_front front (s ++ back) whole)

theorem binary_search_grows (front s back : Text) (found : isBinarySearch s = true) :
    isBinarySearch (front ++ (s ++ back)) = true := by
  simp only [isBinarySearch, Bool.and_eq_true] at found ⊢
  obtain ⟨⟨⟨bounded, middle⟩, equal⟩, less⟩ := found
  exact ⟨⟨⟨Pattern.occurs_between _ front s back bounded, Pattern.occurs_between _ front s back middle⟩,
    Pattern.occurs_between _ front s back equal⟩, Pattern.occurs_between _ front s back less⟩

theorem linear_search_grows (front s back : Text) (found : isLinearSearch s = true) :
    isLinearSearch (front ++ (s ++ back)) = true := by
  simp only [isLinearSearch, Bool.and_eq_true] at found ⊢
  exact ⟨Pattern.occurs_between _ front s back found.1, Pattern.occurs_between _ front s back found.2⟩

end Scan

namespace Signals

structure SeenIn (less more : Signals) : Prop where
  loopCount : less.loopCount ≤ more.loopCount
  loopDepth : less.loopDepth ≤ more.loopDepth
  isBinarySearch : less.isBinarySearch = true → more.isBinarySearch = true
  isLinearSearch : less.isLinearSearch = true → more.isLinearSearch = true

def AnchoredIn (less more : Signals) : Prop :=
  ∀ recursion, less.recursion = some recursion →
    ∃ grown, more.recursion = some grown ∧ grown.functionName = recursion.functionName ∧
      recursion.callCount ≤ grown.callCount

theorem seen_between (front s back : Text) (whole : Text.WholeLines front) :
    SeenIn (ofSource s) (ofSource (front ++ (s ++ back))) where
  loopCount := (Scan.loops_grow front s back whole).1
  loopDepth := (Scan.loops_grow front s back whole).2
  isBinarySearch := Scan.binary_search_grows front s back
  isLinearSearch := Scan.linear_search_grows front s back

/-- Text at the end takes no signal back; whole lines in front, with or without text at the end,
take back no loops and no shapes of searches. -/
theorem signals_grow (s back : Text) :
    SeenIn (ofSource s) (ofSource (s ++ back)) ∧ AnchoredIn (ofSource s) (ofSource (s ++ back)) ∧
      ∀ front, Text.WholeLines front → SeenIn (ofSource s) (ofSource (front ++ (s ++ back))) := by
  refine ⟨seen_between [] s back (by simp [Text.WholeLines]), ?_, ?_⟩
  · intro recursion found
    exact Scan.recursion_append s back recursion found
  · intro front whole
    exact seen_between front s back whole

end Signals

end OrderOfGrowth
