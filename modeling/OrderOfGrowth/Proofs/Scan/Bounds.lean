import OrderOfGrowth.Proofs.Scan.Depth
import OrderOfGrowth.Text.Utf8

/-!
How far the loop scan counts. The depth never exceeds the count and is zero only with it
(`bounded_source`), and both are far below the size of the source: each loop is a line of its own, with
a keyword on it (`count_within_lines`, `count_within_source`).
-/

set_option autoImplicit false

namespace OrderOfGrowth.Scan

structure Bounded (scan : LoopScan) : Prop where
  depth : scan.depth ≤ scan.maxDepth
  maxDepth : scan.maxDepth ≤ scan.count
  found : 0 < scan.count → 0 < scan.maxDepth

theorem step_bounded (scan : LoopScan) (line : Text) (bounded : Bounded scan) :
    Bounded (scan.step line) := by
  obtain ⟨depth, maxDepth, found⟩ := bounded
  rcases step_of_weight scan line with ⟨-, read⟩ | ⟨-, read⟩ | ⟨-, read⟩ <;> rw [read]
  · have larger : scan.depth + 1 ≤ scan.count + 1 := Nat.succ_le_succ (Nat.le_trans depth maxDepth)
    refine ⟨Nat.le_max_right _ _, Nat.max_le.mpr ⟨Nat.le_succ_of_le maxDepth, larger⟩, fun _ => ?_⟩
    exact Nat.lt_of_lt_of_le (Nat.succ_pos scan.depth) (Nat.le_max_right _ _)
  · exact ⟨Nat.le_trans (Nat.sub_le _ _) depth, maxDepth, found⟩
  · exact ⟨depth, maxDepth, found⟩

theorem fold_bounded (lines : List Text) (scan : LoopScan) (bounded : Bounded scan) :
    Bounded (lines.foldl LoopScan.step scan) := by
  induction lines generalizing scan with
  | nil => exact bounded
  | cons line lines ih => exact ih _ (step_bounded scan line bounded)

theorem bounded_source (source : Text) : Bounded (LoopScan.ofSource source) :=
  fold_bounded (Text.lines source) {} ⟨Nat.le_refl _, Nat.le_refl _, fun more => absurd more (Nat.lt_irrefl _)⟩

theorem count_within_lines (source : Text) :
    (LoopScan.ofSource source).count ≤ (Text.lines source).length := by
  rw [(tracks_source source).count]
  exact List.countP_le_length

theorem opening_line_length (line : Text) (heavy : weight line = 1) : 3 ≤ line.length := by
  obtain ⟨front, word, rest, rfl, -, word_⟩ := (weight_one_iff line).mp heavy
  have long : 3 ≤ word.length := by
    rcases word_ with rfl | rfl <;> decide
  simp only [List.length_append]
  omega

theorem lines_length (s : Text) : ((Text.lines s).map List.length).sum ≤ s.length := by
  induction s using Text.lines.induct with
  | case1 => simp [Text.lines]
  | case2 s ih =>
      simp only [Text.lines, List.map_cons, List.sum_cons, List.length_cons, List.length_nil]
      omega
  | case3 s ih =>
      simp only [Text.lines, List.map_cons, List.sum_cons, List.length_cons, List.length_nil]
      omega
  | case4 c s plain noEnd last ih =>
      rw [Text.lines.eq_4 c s plain noEnd, last]
      simp
  | case5 c s plain noEnd l ls behind ih =>
      rw [Text.lines.eq_4 c s plain noEnd, behind]
      rw [behind] at ih
      simp only [List.map_cons, List.sum_cons, List.length_cons] at ih ⊢
      omega

theorem heavy_lines_length (lines : List Text) :
    3 * lines.countP (weight · = 1) ≤ (lines.map List.length).sum := by
  induction lines with
  | nil => simp
  | cons line lines ih =>
      rw [List.countP_cons, List.map_cons, List.sum_cons]
      by_cases heavy : weight line = 1
      · have long := opening_line_length line heavy
        simp only [heavy, decide_true, if_true]
        omega
      · simp only [heavy, decide_false, Bool.false_eq_true, if_false]
        omega

theorem count_within_source (source : Text) :
    3 * (LoopScan.ofSource source).count ≤ source.length := by
  rw [(tracks_source source).count]
  exact Nat.le_trans (heavy_lines_length _) (lines_length source)

theorem length_within_bytes (s : Text) : s.length ≤ (Text.encode s).length := by
  induction s with
  | nil => exact Nat.le_refl _
  | cons c s ih =>
      have positive : 0 < (String.utf8EncodeChar c).length := by
        rw [String.length_utf8EncodeChar]
        exact c.utf8Size_pos
      rw [Text.encode, List.flatMap_cons, List.length_append, List.length_cons]
      rw [Text.encode] at ih
      omega

end OrderOfGrowth.Scan
