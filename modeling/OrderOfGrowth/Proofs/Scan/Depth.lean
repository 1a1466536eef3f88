import OrderOfGrowth.Proofs.Text.Lines
import OrderOfGrowth.Scan.Loops
import Mathlib

/-!
What the loop scan computes. Every line has a weight, and the depth is the weight of the heaviest
block of lines (`depth_is_heaviest_block`): the running depth is the heaviest block that ends at the
line just read.
-/

set_option autoImplicit false

namespace OrderOfGrowth.Scan

def weight (line : Text) : Int :=
  if "for".toList <+: Text.trimMargin line ∨ "while".toList <+: Text.trimMargin line then 1
  else if Text.trimMargin line = "\x7d".toList then -1
  else 0

def blockWeight (block : List Text) : Int :=
  (block.map weight).sum

theorem opens_loop_iff (line : Text) :
    opensLoop line = true ↔ "for".toList <+: line ∨ "while".toList <+: line := by
  simp [opensLoop]

theorem closes_loop_iff (line : Text) : closesLoop line = true ↔ line = "\x7d".toList := by
  simp [closesLoop]

theorem opening_line_not_closing (line : Text) (opens : opensLoop line = true) :
    closesLoop line = false := by
  rw [Bool.eq_false_iff]
  intro closes
  rw [(closes_loop_iff line).mp closes] at opens
  revert opens
  decide

-- One line, by its weight: these three equations are all that is used of `step`.
theorem step_of_weight (scan : LoopScan) (line : Text) :
    (weight line = 1 ∧ scan.step line = scan.openLevel) ∨
      (weight line = -1 ∧ scan.step line = scan.closeLevel) ∨
      (weight line = 0 ∧ scan.step line = scan) := by
  by_cases opens : opensLoop (Text.trimMargin line)
  · have closes := opening_line_not_closing _ opens
    left
    exact ⟨if_pos ((opens_loop_iff _).mp opens), by simp [LoopScan.step, opens, closes]⟩
  · right
    have light : ¬ ("for".toList <+: Text.trimMargin line ∨ "while".toList <+: Text.trimMargin line) :=
      fun starts => opens ((opens_loop_iff _).mpr starts)
    by_cases closes : closesLoop (Text.trimMargin line)
    · left
      refine ⟨?_, by simp [LoopScan.step, opens, closes]⟩
      rw [weight, if_neg light, if_pos ((closes_loop_iff _).mp closes)]
    · right
      refine ⟨?_, by simp [LoopScan.step, opens, closes]⟩
      rw [weight, if_neg light, if_neg (fun same => closes ((closes_loop_iff _).mpr same))]

theorem weight_one_iff (line : Text) :
    weight line = 1 ↔ ∃ front word rest, line = front ++ (word ++ rest) ∧
      (∀ c ∈ front, Text.isMargin c = true) ∧ (word = "for".toList ∨ word = "while".toList) := by
  have heavy : weight line = 1 ↔ "for".toList <+: Text.trimMargin line ∨ "while".toList <+: Text.trimMargin line := by
    by_cases starts : "for".toList <+: Text.trimMargin line ∨ "while".toList <+: Text.trimMargin line
    · exact iff_of_true (if_pos starts) starts
    · refine iff_of_false ?_ starts
      rw [weight, if_neg starts]
      split <;> decide
  rw [heavy, Text.word_starts_iff "for".toList line (by decide) (by simp [Text.isMargin, Text.isWhiteSpace]),
    Text.word_starts_iff "while".toList line (by decide) (by simp [Text.isMargin, Text.isWhiteSpace])]
  constructor
  · rintro (⟨front, rest, split, ahead⟩ | ⟨front, rest, split, ahead⟩)
    · exact ⟨front, _, rest, split, ahead, .inl rfl⟩
    · exact ⟨front, _, rest, split, ahead, .inr rfl⟩
  · rintro ⟨front, word, rest, split, ahead, rfl | rfl⟩
    · exact .inl ⟨front, rest, split, ahead⟩
    · exact .inr ⟨front, rest, split, ahead⟩

theorem weight_minus_one_iff (line : Text) :
    weight line = -1 ↔ ∃ front back, line = front ++ ('\x7d' :: back) ∧
      (∀ c ∈ front, Text.isMargin c = true) ∧ ∀ c ∈ back, Text.isMargin c = true := by
  have light : weight line = -1 ↔ Text.trimMargin line = "\x7d".toList := by
    by_cases starts : "for".toList <+: Text.trimMargin line ∨ "while".toList <+: Text.trimMargin line
    · refine iff_of_false ?_ fun closes => ?_
      · rw [weight, if_pos starts]
        decide
      · have other := opening_line_not_closing _ ((opens_loop_iff _).mpr starts)
        rw [(closes_loop_iff _).mpr closes] at other
        cases other
    · by_cases closes : Text.trimMargin line = "\x7d".toList
      · exact iff_of_true (by rw [weight, if_neg starts, if_pos closes]) closes
      · refine iff_of_false ?_ closes
        rw [weight, if_neg starts, if_neg closes]
        decide
  rw [light, Text.trim_margin_iff]
  refine ⟨fun trims => trims.1, fun around => ⟨around, ?_, ?_⟩⟩ <;>
    simp [Text.isMargin, Text.isWhiteSpace]

theorem step_count (scan : LoopScan) (line : Text) :
    (scan.step line).count = scan.count + if weight line = 1 then 1 else 0 := by
  rcases step_of_weight scan line with ⟨heavy, read⟩ | ⟨heavy, read⟩ | ⟨heavy, read⟩ <;>
    simp [heavy, read, LoopScan.openLevel, LoopScan.closeLevel]

theorem step_depth (scan : LoopScan) (line : Text) :
    ((scan.step line).depth : Int) = max 0 (scan.depth + weight line) := by
  rcases step_of_weight scan line with ⟨heavy, read⟩ | ⟨heavy, read⟩ | ⟨heavy, read⟩ <;>
    simp only [heavy, read, LoopScan.openLevel, LoopScan.closeLevel] <;> omega

theorem step_max_depth (scan : LoopScan) (line : Text) (bounded : scan.depth ≤ scan.maxDepth) :
    (scan.step line).maxDepth = max scan.maxDepth (scan.step line).depth := by
  rcases step_of_weight scan line with ⟨heavy, read⟩ | ⟨heavy, read⟩ | ⟨heavy, read⟩ <;>
    simp only [read, LoopScan.openLevel, LoopScan.closeLevel] <;> omega

theorem block_weight_append (front back : List Text) :
    blockWeight (front ++ back) = blockWeight front + blockWeight back := by
  simp [blockWeight]

-- A block that ends at the last line is empty or makes a block in front of it one line longer.
theorem ending_weights (seen : List Text) (line : Text) :
    blockWeight '' { block | block <:+ seen ++ [line] } =
      {0} ∪ (· + weight line) '' (blockWeight '' { block | block <:+ seen }) := by
  have shorter : { block | block <:+ seen ++ [line] } =
      {[]} ∪ (· ++ [line]) '' { block | block <:+ seen } := by
    ext block
    simp only [Set.mem_ofPred_eq, Set.mem_union, Set.mem_singleton_iff, Set.mem_image,
      List.suffix_concat_iff]
    simp only [and_comm, eq_comm]
  rw [shorter, Set.image_union, Set.image_singleton, Set.image_image, Set.image_image]
  simp only [block_weight_append]
  simp [blockWeight]

theorem inside_weights (seen : List Text) (line : Text) :
    blockWeight '' { block | block <:+: seen ++ [line] } =
      blockWeight '' { block | block <:+: seen } ∪
        blockWeight '' { block | block <:+ seen ++ [line] } := by
  have parted : { block | block <:+: seen ++ [line] } =
      { block | block <:+: seen } ∪ { block | block <:+ seen ++ [line] } := by
    ext block
    exact List.infix_concat_iff.trans or_comm
  rw [parted, Set.image_union]

structure Tracks (seen : List Text) (scan : LoopScan) : Prop where
  count : scan.count = seen.countP (weight · = 1)
  depth : IsGreatest (blockWeight '' { block | block <:+ seen }) scan.depth
  maxDepth : IsGreatest (blockWeight '' { block | block <:+: seen }) scan.maxDepth

theorem tracks_start : Tracks [] {} where
  count := rfl
  depth := by simp [blockWeight]
  maxDepth := by simp [blockWeight]

theorem tracks_step (seen : List Text) (scan : LoopScan) (line : Text) (tracks : Tracks seen scan) :
    Tracks (seen ++ [line]) (scan.step line) := by
  have bounded : scan.depth ≤ scan.maxDepth := by
    obtain ⟨block, ending, same⟩ := tracks.depth.1
    have inside : (scan.depth : Int) ≤ scan.maxDepth :=
      tracks.maxDepth.2 ⟨block, ending.isInfix, same⟩
    omega
  have depth : IsGreatest (blockWeight '' { block | block <:+ seen ++ [line] })
      ((scan.step line).depth : Int) := by
    have longer : Monotone (· + weight line) := fun _ _ less => Int.add_le_add_right less _
    rw [step_depth, ending_weights]
    exact isGreatest_singleton.union (longer.map_isGreatest tracks.depth)
  refine ⟨?_, depth, ?_⟩
  · rw [step_count, tracks.count, List.countP_append]
    simp [List.countP_cons]
  · have larger : ((scan.step line).maxDepth : Int) =
        max (scan.maxDepth : Int) ((scan.step line).depth : Int) := by
      have read := step_max_depth scan line bounded
      omega
    rw [larger, inside_weights]
    exact tracks.maxDepth.union depth

theorem tracks_fold (lines seen : List Text) (scan : LoopScan) (tracks : Tracks seen scan) :
    Tracks (seen ++ lines) (lines.foldl LoopScan.step scan) := by
  induction lines generalizing seen scan with
  | nil => simpa using tracks
  | cons line lines ih =>
      have next := ih (seen ++ [line]) (scan.step line) (tracks_step seen scan line tracks)
      simpa using next

theorem tracks_source (source : Text) : Tracks (Text.lines source) (LoopScan.ofSource source) :=
  tracks_fold (Text.lines source) [] {} tracks_start

/-- The scan counts the lines of weight one, and its depth is the weight of the heaviest block of
neighbouring lines; the empty block is one. -/
theorem depth_is_heaviest_block (source : Text) :
    (LoopScan.ofSource source).count = (Text.lines source).countP (weight · = 1) ∧
      IsGreatest (blockWeight '' { block | block <:+: Text.lines source })
        (LoopScan.ofSource source).maxDepth :=
  ⟨(tracks_source source).count, (tracks_source source).maxDepth⟩

end OrderOfGrowth.Scan
