import OrderOfGrowth.Proofs.Narration.Told
import OrderOfGrowth.Proofs.Scan.Bounds
import OrderOfGrowth.Proofs.Scan.Recursion
import OrderOfGrowth.Proofs.Text.LineEnds
import OrderOfGrowth.Proofs.Text.Utf8
import OrderOfGrowth.SourceFile

/-!
The verdicts of an analysis. The signals of a source are consistent (`consistent_source`), so each
analysis that is not blank tells one verdict on its loops and one case for its recursion, as far as it has
them, and the constant verdict if it has neither (`constant_verdict_iff`).
-/

set_option autoImplicit false

namespace OrderOfGrowth

theorem Signals.consistent_source (source : Text) : (Signals.ofSource source).Consistent where
  depth := (Scan.bounded_source source).maxDepth
  depthZero := by
    obtain ⟨-, maxDepth, found⟩ := Scan.bounded_source source
    simp only [Signals.ofSource]
    omega
  recursion := by
    intro recursion found
    obtain ⟨_, definition, -, twice⟩ := Scan.recursion_some source recursion found
    obtain ⟨_, _, _, _, run, _⟩ := definition.defines
    exact ⟨run.nonempty, run.inside, twice⟩

namespace Narration

open Text (decimal)

def constantVerdict : Text :=
  "O(1)".toList

theorem free_without (c : Char) (text : Text) (needed : c ∈ constantVerdict) (absent : c ∉ text) :
    ¬ constantVerdict <:+: text :=
  fun inside => absent (inside.subset needed)

theorem free_behind (front text : Text) (absent : 'O' ∉ front) (free : ¬ constantVerdict <:+: text) :
    ¬ constantVerdict <:+: front ++ text := by
  induction front with
  | nil => exact free
  | cons c front ih =>
      rw [List.mem_cons, not_or] at absent
      rw [List.cons_append, List.infix_cons_iff, not_or]
      refine ⟨?_, ih absent.2⟩
      intro starts
      exact absent.1 (List.cons_prefix_cons.mp starts).1

theorem capital_not_digit (n : Nat) : 'O' ∉ decimal n := by
  intro inside
  have digit := Text.decimal_digits n 'O' inside
  revert digit
  decide

theorem capital_not_exponent (calls : Nat) : 'O' ∉ exponentText calls := by
  intro inside
  have shown := Number.fixed_text_chars 2 _ 'O' inside
  revert shown
  decide

theorem polynomial_free (degree : Nat) : ¬ constantVerdict <:+: timeMark ++ polynomial degree := by
  apply free_behind timeMark _ (by decide)
  have split : polynomial degree = 'O' :: ("(n^".toList ++ decimal degree ++ ")".toList) := rfl
  rw [split, List.infix_cons_iff, not_or]
  constructor
  · intro starts
    obtain ⟨-, starts⟩ := List.cons_prefix_cons.mp starts
    obtain ⟨-, starts⟩ := List.cons_prefix_cons.mp starts
    obtain ⟨other, -⟩ := List.cons_prefix_cons.mp starts
    revert other
    decide
  · exact free_without 'O' _ (by decide) (by simp [capital_not_digit])

theorem nesting_free (depth : Nat) : ∀ line ∈ nestingVerdict depth, ¬ constantVerdict <:+: line.text := by
  rw [nestingVerdict]
  split
  · decide
  split
  · decide
  · rw [List.forall_mem_cons, List.forall_mem_singleton]
    exact ⟨polynomial_free depth, free_without 'O' _ (by decide) (by simp [Line.opening, capital_not_digit])⟩

theorem loop_lines_free (signals : Signals) :
    ∀ line ∈ loopLines signals, ¬ constantVerdict <:+: line.text := by
  rw [loopLines]
  split
  · decide
  rw [List.forall_mem_append, List.forall_mem_cons, List.forall_mem_singleton]
  refine ⟨⟨?_, ?_⟩, ?_⟩
  · exact free_without 'O' _ (by decide) (by simp [Line.opening, capital_not_digit])
  · exact free_without 'O' _ (by decide) (by simp [Line.plain, capital_not_digit])
  rw [loopVerdict]
  split
  · decide
  split
  · decide
  · exact nesting_free signals.loopDepth

theorem master_case_free (calls : Nat) : ∀ line ∈ masterCase calls, ¬ constantVerdict <:+: line.text := by
  rw [masterCase]
  split
  · decide
  split
  · rw [List.forall_mem_singleton]
    exact free_without 'O' _ (by decide) (by simp [Line.plain, capital_not_exponent])
  · decide

theorem recursion_lines_free (recursion : Scan.Recursion)
    (inside : ∀ c ∈ recursion.functionName, Text.isNameChar c = true) :
    ∀ line ∈ recursionLines recursion, ¬ constantVerdict <:+: line.text := by
  have named : '(' ∉ recursion.functionName :=
    Scan.not_inside Text.isNameChar _ '(' inside (by decide)
  rw [recursionLines, List.forall_mem_append]
  refine ⟨?_, master_case_free recursion.callCount⟩
  simp only [List.forall_mem_cons, List.not_mem_nil, false_implies, implies_true, and_true]
  refine ⟨?_, ?_, by decide, ?_, ?_, ?_⟩
  · exact free_without '(' _ (by decide) (by simp [Line.opening, named])
  all_goals
    exact free_without 'O' _ (by decide)
      (by simp [Line.opening, Line.plain, capital_not_digit, capital_not_exponent])

/-- The constant verdict is given exactly if there are neither loops nor a recursion. -/
theorem constant_verdict_iff (signals : Signals) (consistent : signals.Consistent) :
    (∃ line ∈ ofSignals signals, constantVerdict <:+: line.text) ↔
      signals.loopCount = 0 ∧ signals.recursion = none := by
  constructor
  · rintro ⟨line, member, given⟩
    rw [ofSignals, List.mem_append, List.mem_append] at member
    rcases member with (opening | loops) | rest
    · rw [List.mem_singleton.mp opening] at given
      exact absurd given (by decide)
    · exact absurd given (loop_lines_free signals line loops)
    · cases found : signals.recursion with
      | some recursion =>
          rw [found] at rest
          obtain ⟨-, inside, -⟩ := consistent.recursion recursion found
          exact absurd given (recursion_lines_free recursion inside line rest)
      | none =>
          rw [found] at rest
          by_cases none : signals.loopCount = 0
          · exact ⟨none, rfl⟩
          · simp [none] at rest
  · rintro ⟨none, alone⟩
    refine ⟨.opening "📦 No loops or recursion detected → O(1)".toList, ?_, by decide⟩
    simp [ofSignals, alone, none, constantLines]

-- What a source that is not blank comes to. The index of the formula is at most the number of bytes of
-- the source, so it overflows no word that can count those.
structure Reached (source : Text) (signals : Signals) (lines : List Line) : Prop where
  consistent : signals.Consistent
  withinLines : signals.loopCount ≤ (SourceFile.ofText source).totalLines
  withinBytes : 0 < signals.loopCount → signals.loopDepth + 1 ≤ (SourceFile.ofText source).bytes.length
  loops : 0 < signals.loopCount → ∃ verdict, LoopVerdict signals lines verdict
  noLoops : signals.loopCount = 0 → told timeMark lines = []
  recursion : ∀ recursion, signals.recursion = some recursion →
    ∃ exponent, Derivation recursion lines exponent
  noRecursion : signals.recursion = none → told caseMark lines = []
  constant : (∃ line ∈ lines, constantVerdict <:+: line.text) ↔
    signals.loopCount = 0 ∧ signals.recursion = none

/-- A source that is not blank has consistent signals. Its narration gives one verdict on loops exactly
if it has any, one case of the master theorem exactly if it has a recursion, and the constant verdict
exactly if it has neither. -/
theorem analysis_reaches_verdicts (source : Text) (solid : ∃ c ∈ source, Text.isMargin c = false) :
    ∃ signals lines, Analysis.ofSource source = .narrated signals ∧
      (Analysis.ofSource source).lines? = some lines ∧ Reached source signals lines := by
  have notBlank : Text.trimMargin source ≠ [] := by
    rw [Ne, Text.trim_margin_nil_iff]
    intro blank
    obtain ⟨c, member, inside⟩ := solid
    rw [blank c member] at inside
    cases inside
  have narrated : Analysis.ofSource source = .narrated (Signals.ofSource source) := if_neg notBlank
  have consistent := Signals.consistent_source source
  refine ⟨Signals.ofSource source, ofSignals (Signals.ofSource source), narrated, by rw [narrated]; rfl, ?_⟩
  refine ⟨consistent, ?_, ?_, loop_verdict _ consistent, ?_, ?_, ?_, constant_verdict_iff _ consistent⟩
  · rw [SourceFile.totalLines, SourceFile.text, SourceFile.ofText, SourceFile.ofBytes, Text.decode_encode]
    exact Scan.count_within_lines source
  · intro loops
    have depth := consistent.depth
    have long : 3 * (Signals.ofSource source).loopCount ≤ source.length := Scan.count_within_source source
    have bytes : source.length ≤ (SourceFile.ofText source).bytes.length := Scan.length_within_bytes source
    omega
  · intro none
    rw [told_loops timeMark _ rfl (fun r => master_case_silent timeMark r.callCount rfl rfl rfl) rfl,
      loopLines, if_pos none]
    rfl
  · intro recursion found
    exact ⟨_, derivation _ recursion found (consistent.recursion recursion found).2.2⟩
  · intro none
    rw [told_recursion caseMark _ (by decide) (by decide), none]
    rfl

def nestedSource : Text :=
  "f() \x7b\nfor\nfor\nfor f(\n\x7d".toList

theorem nested_source_reached :
    (∃ c ∈ nestedSource, Text.isMargin c = false) ∧
      ∃ lines, (Analysis.ofSource nestedSource).lines? = some lines ∧
        Reached nestedSource ⟨3, 3, some ⟨['f'], 2⟩, false, false⟩ lines := by
  have solid : ∃ c ∈ nestedSource, Text.isMargin c = false := ⟨'f', by decide, by decide⟩
  obtain ⟨signals, lines, narrated, shown, reached⟩ := analysis_reaches_verdicts nestedSource solid
  have found : Analysis.ofSource nestedSource = .narrated ⟨3, 3, some ⟨['f'], 2⟩, false, false⟩ := by cbv
  obtain rfl := Analysis.narrated.inj (narrated.symm.trans found)
  exact ⟨solid, lines, shown, reached⟩

end Narration

end OrderOfGrowth
