import OrderOfGrowth.Analysis
import OrderOfGrowth.Proofs.Scan.Recursion
import OrderOfGrowth.Proofs.Text.LineEnds

/-!
Line ends and the analysis. Whether lines end with line feeds or with carriage returns and line feeds
makes no difference to any scan (`loops_with_returns`, `recursion_with_returns`), hence none to the
analysis (`analysis_with_returns`).
-/

set_option autoImplicit false

namespace OrderOfGrowth

namespace Scan

open Text (withReturns EndsAlike isNameChar)

theorem step_ends_alike (scan : LoopScan) (line other : Text) (alike : EndsAlike line other) :
    scan.step other = scan.step line := by
  rw [LoopScan.step, LoopScan.step, Text.trim_margin_ends_alike line other alike]

theorem fold_ends_alike (lines others : List Text) (alike : List.Forall₂ EndsAlike lines others)
    (scan : LoopScan) : others.foldl LoopScan.step scan = lines.foldl LoopScan.step scan := by
  induction alike generalizing scan with
  | nil => rfl
  | @cons line other lines others first _ ih =>
      rw [List.foldl_cons, List.foldl_cons, step_ends_alike scan line other first, ih]

theorem loops_with_returns (source : Text) :
    LoopScan.ofSource (withReturns source) = LoopScan.ofSource source :=
  fold_ends_alike _ _ (Text.lines_with_returns source) {}

theorem else_if_less_ignores : elseIfLess.IgnoresReturns := by
  apply Pattern.ignores_seq (.text "else".toList)
  · exact Pattern.ignores_of_tests _ (by decide)
  · apply Pattern.ignores_some_run _ _ (by decide)
    · exact Pattern.ignores_of_tests _ (by decide)
    · intro w accepted
      obtain ⟨u, v, first, -, rfl⟩ := accepted
      rw [(Pattern.accepts_text _ _).mp first]
      exact ⟨'i', 'f' :: v, rfl, by decide⟩

theorem binary_search_with_returns (source : Text) :
    isBinarySearch (withReturns source) = isBinarySearch source := by
  have bounded := Pattern.ignores_of_tests boundedWhile (by decide)
  have middle := Pattern.ignores_of_tests midpoint (by decide)
  have equal := Pattern.ignores_of_tests equalityIf (by decide)
  rw [isBinarySearch, isBinarySearch, Pattern.occurs_with_returns _ bounded,
    Pattern.occurs_with_returns _ middle, Pattern.occurs_with_returns _ equal,
    Pattern.occurs_with_returns _ else_if_less_ignores]

theorem linear_search_with_returns (source : Text) :
    isLinearSearch (withReturns source) = isLinearSearch source := by
  have bounded := Pattern.ignores_of_tests indexBoundedFor (by decide)
  have equal := Pattern.ignores_of_tests equalityIf (by decide)
  rw [isLinearSearch, isLinearSearch, Pattern.occurs_with_returns _ bounded,
    Pattern.occurs_with_returns _ equal]

theorem opens_body_with_returns (s : Text) : OpensBody (withReturns s) ↔ OpensBody s := by
  have ignores := Pattern.ignores_of_tests bodyPattern (by decide)
  rw [← fits_body_iff, ← fits_body_iff, Pattern.fits_with_returns _ ignores]

theorem name_without_ends (name : Text) (inside : ∀ c ∈ name, isNameChar c = true) :
    '\n' ∉ name ∧ '\r' ∉ name :=
  ⟨not_inside isNameChar name '\n' inside (by decide), not_inside isNameChar name '\r' inside (by decide)⟩

-- A name takes no part in line ends, so a definition is cut behind its name as before.
theorem definition_with_returns (s : Text) : definition? (withReturns s) = definition? s := by
  ext name
  rw [definition_some_iff, definition_some_iff]
  refine and_congr_right fun _ => and_congr_right fun inside => ?_
  obtain ⟨noFeed, noReturn⟩ := name_without_ends name inside
  constructor
  · rintro ⟨after, split, opens⟩
    obtain ⟨w, rest, rfl, ⟨rfl, rfl⟩ | ⟨later, -, rfl, -⟩⟩ := Text.with_returns_split s name after split
    · have plain : '\n' ∉ w := fun member => noFeed (Text.mem_with_returns w '\n' member)
      rw [Text.with_returns_self w plain]
      exact ⟨rest, rfl, (opens_body_with_returns rest).mp opens⟩
    · exact absurd (List.mem_append_right _ List.mem_cons_self) noReturn
  · rintro ⟨after, rfl, opens⟩
    refine ⟨withReturns after, ?_, (opens_body_with_returns after).mpr opens⟩
    rw [Text.with_returns_append, Text.with_returns_self name noFeed]

theorem defined_name_with_returns (source : Text) :
    definedName? (withReturns source) = definedName? source := by
  change Text.firstSuffix? definition? (withReturns source) = Text.firstSuffix? definition? source
  induction source with
  | nil => rfl
  | cons c s ih =>
      by_cases feed : c = '\n'
      · rw [feed, Text.with_returns_feed, Text.firstSuffix?, Text.firstSuffix?, Text.firstSuffix?,
          definition_outside_name '\r' _ (by decide), definition_outside_name '\n' _ (by decide),
          definition_outside_name '\n' _ (by decide)]
        exact ih
      · rw [Text.with_returns_cons c s feed, Text.firstSuffix?, Text.firstSuffix?,
          ← Text.with_returns_cons c s feed, definition_with_returns, ih]

theorem call_pattern_ignores (name : Text) (isName : IsName name) :
    (callPattern name).IgnoresReturns := by
  obtain ⟨noFeed, noReturn⟩ := name_without_ends name isName.inside
  refine Pattern.ignores_of_tests _ ⟨Pattern.each_test_text _ _ name ?_, by decide⟩
  intro c member
  have other : c ≠ '\n' ∧ c ≠ '\r' :=
    ⟨fun same => noFeed (same ▸ member), fun same => noReturn (same ▸ member)⟩
  exact ⟨by simpa using other.1.symm, by simpa using other.2.symm⟩

theorem call_sites_with_returns (name : Text) (isName : IsName name) (source : Text) :
    callSites name (withReturns source) = callSites name source := by
  induction size : source.length using Nat.strong_induction_on generalizing source with
  | _ n ih =>
    cases source with
    | nil => rfl
    | cons c s =>
        have shorter : s.length < n := by simp [← size]
        by_cases feed : c = '\n'
        · rw [feed, Text.with_returns_feed,
            call_sites_cons name _ _ isName (call_outside_name name isName '\r' _ (by decide)),
            call_sites_cons name _ _ isName (call_outside_name name isName '\n' _ (by decide)),
            call_sites_cons name _ _ isName (call_outside_name name isName '\n' _ (by decide)),
            ih s.length shorter s rfl]
        · have same := Pattern.fits_with_returns _ (call_pattern_ignores name isName) (c :: s)
          by_cases fits : (callPattern name).Fits (c :: s)
          · obtain ⟨gap, white, behind, split⟩ := (fits_call_iff name _).mp fits
            have whiteThere : ∀ d ∈ withReturns gap, Text.isWhiteSpace d = true :=
              (Text.with_returns_all Text.isWhiteSpace gap (by decide)).mpr white
            have splitThere : withReturns (c :: s) =
                name ++ (withReturns gap ++ '(' :: withReturns behind) := by
              rw [split, Text.with_returns_append, Text.with_returns_append,
                Text.with_returns_self name (name_without_ends name isName.inside).1,
                Text.with_returns_cons '(' behind (by decide)]
            have sizes := congrArg List.length split
            simp only [List.length_cons, List.length_append] at sizes
            rw [splitThere, split, call_sites_of_call name _ _ isName whiteThere,
              call_sites_of_call name _ _ isName white, ih behind.length (by omega) behind rfl]
          · have unfit := mt same.mp fits
            rw [Text.with_returns_cons c s feed] at unfit ⊢
            rw [call_sites_cons name c _ isName unfit, call_sites_cons name c s isName fits,
              ih s.length shorter s rfl]

theorem recursion_with_returns (source : Text) :
    recursion? (withReturns source) = recursion? source :=
  recursion_congr source _ (defined_name_with_returns source) fun name isName =>
    call_sites_with_returns name isName source

end Scan

theorem signals_with_returns (source : Text) :
    Signals.ofSource (Text.withReturns source) = Signals.ofSource source := by
  rw [Signals.ofSource, Signals.ofSource, Scan.loops_with_returns, Scan.recursion_with_returns,
    Scan.binary_search_with_returns, Scan.linear_search_with_returns]

theorem blank_with_returns (source : Text) :
    Text.trimMargin (Text.withReturns source) = [] ↔ Text.trimMargin source = [] := by
  rw [Text.trim_margin_nil_iff, Text.trim_margin_nil_iff,
    Text.with_returns_all Text.isMargin source (by decide)]

/-- A carriage return in front of each line feed changes nothing: a blank source stays blank, and any
other has the same signals and so the same narration. -/
theorem analysis_with_returns (source : Text) :
    Analysis.ofSource (Text.withReturns source) = Analysis.ofSource source := by
  rw [Analysis.ofSource, Analysis.ofSource, signals_with_returns]
  simp only [blank_with_returns]

end OrderOfGrowth
