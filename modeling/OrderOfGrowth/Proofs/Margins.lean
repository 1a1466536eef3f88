import OrderOfGrowth.Proofs.LineEnds
import OrderOfGrowth.Proofs.Scan.Anchoring
import OrderOfGrowth.Proofs.Text.Margins

/-!
Margins and the analysis. White space and byte-order marks around a source change no scan
(`loops_in_margins`, `recursion_in_margins`), so the analysis is the one of the source, and it is blank
exactly if there is nothing else (`margins_irrelevant`).
-/

set_option autoImplicit false

namespace OrderOfGrowth

namespace Scan

open Text (Margin EndInMargins isMargin isNameChar)

theorem step_trimmed (scan : LoopScan) (line other : Text)
    (same : Text.trimMargin other = Text.trimMargin line) : scan.step other = scan.step line := by
  rw [LoopScan.step, LoopScan.step, same]

theorem step_blank (scan : LoopScan) (line : Text) (blank : Margin line) : scan.step line = scan :=
  (step_trimmed scan [] line (Text.trim_blank line blank)).trans rfl

theorem fold_blank (lines : List Text) (blank : ∀ line ∈ lines, Margin line) (scan : LoopScan) :
    lines.foldl LoopScan.step scan = scan := by
  induction lines with
  | nil => rfl
  | cons line lines ih =>
      rw [List.forall_mem_cons] at blank
      rw [List.foldl_cons, step_blank scan line blank.1, ih blank.2]

theorem fold_end_in_margins (lines others : List Text) (alike : List.Forall₂ EndInMargins lines others)
    (scan : LoopScan) : others.foldl LoopScan.step scan = lines.foldl LoopScan.step scan := by
  induction alike generalizing scan with
  | nil => rfl
  | @cons line other lines others first _ ih =>
      rw [List.foldl_cons, List.foldl_cons,
        step_trimmed scan line other (Text.trim_end_in_margins line other first), ih]

theorem loops_before_margin (s back : Text) (margin : Margin back) :
    LoopScan.ofSource (s ++ back) = LoopScan.ofSource s := by
  obtain ⟨others, blanks, read, alike, blank⟩ := Text.lines_append_margin s back margin
  rw [LoopScan.ofSource, read, List.foldl_append, fold_blank blanks blank]
  exact fold_end_in_margins _ _ alike {}

theorem loops_after_margin (front s : Text) (margin : Margin front) :
    LoopScan.ofSource (front ++ s) = LoopScan.ofSource s := by
  induction front with
  | nil => rfl
  | cons c front ih =>
      obtain ⟨first, rest⟩ := List.forall_mem_cons.mp margin
      rw [← ih rest, List.cons_append, LoopScan.ofSource, LoopScan.ofSource]
      rcases Text.lines_cons_margin c (front ++ s) first with
        ⟨blank, empty, read⟩ | ⟨line, next, more, before, after, same⟩
      · rw [read, List.foldl_cons, step_blank _ blank empty]
      · rw [before, after, List.foldl_cons, List.foldl_cons, step_trimmed _ line next same]

theorem loops_in_margins (front s back : Text) (ahead : Margin front) (behind : Margin back) :
    LoopScan.ofSource (front ++ (s ++ back)) = LoopScan.ofSource s := by
  rw [loops_after_margin front _ ahead, loops_before_margin s back behind]

theorem one_solid (c : Char) (outside : isMargin c = false) (w : Text)
    (accepted : (Pattern.one c).Accepts w) : Text.isSolid w = true := by
  rw [(Pattern.accepts_one c w).mp accepted]
  simp [Text.isSolid, outside]

theorem header_takes_solid (word : Text) (parts : List Pattern) (c : Char)
    (starts : Text.isSolid word = true) (ends : isMargin c = false) :
    (Pattern.sequence (.text word :: (parts ++ [.one c]))).TakesSolid :=
  Pattern.takes_solid word parts [] (.one c) starts (one_solid c ends) rfl

theorem midpoint_takes_solid : midpoint.TakesSolid := by
  apply Pattern.takes_solid "mid".toList [.white, .one '=', .white, .optional (.one '('), .except ')',
    .text "low".toList, .white, .one '+', .white] [.except ')', .optional (.one ')')] (.text "high".toList)
    (by decide)
  · intro w accepted
    rw [(Pattern.accepts_text _ w).mp accepted]
    decide
  · exact ⟨[], [], by simp, ⟨[], [], .inr rfl, rfl, rfl⟩, rfl⟩

theorem bounded_while_takes_solid : boundedWhile.TakesSolid :=
  header_takes_solid "while".toList [.white, .one '(', .except ')', .one '<', .optional (.one '='),
    .except ')'] ')' (by decide) (by decide)

theorem equality_if_takes_solid : equalityIf.TakesSolid :=
  header_takes_solid "if".toList [.white, .one '(', .except ')', .text "==".toList, .except ')'] ')'
    (by decide) (by decide)

theorem else_if_less_takes_solid : elseIfLess.TakesSolid :=
  header_takes_solid "else".toList [.someRun Text.isWhiteSpace, .text "if".toList, .white, .one '(',
    .except ')'] '<' (by decide) (by decide)

theorem index_bounded_for_takes_solid : indexBoundedFor.TakesSolid :=
  header_takes_solid "for".toList [.white, .one '(', .except ')', .one 'i', .except ')', .one '<',
    .except ')', .one 'n', .except ')'] ')' (by decide) (by decide)

section Searches

variable (front s back : Text) (ahead : Margin front) (behind : Margin back)

include ahead behind

theorem binary_search_in_margins : isBinarySearch (front ++ (s ++ back)) = isBinarySearch s := by
  rw [isBinarySearch, isBinarySearch,
    Pattern.occurs_in_margins _ bounded_while_takes_solid front s back ahead behind,
    Pattern.occurs_in_margins _ midpoint_takes_solid front s back ahead behind,
    Pattern.occurs_in_margins _ equality_if_takes_solid front s back ahead behind,
    Pattern.occurs_in_margins _ else_if_less_takes_solid front s back ahead behind]

theorem linear_search_in_margins : isLinearSearch (front ++ (s ++ back)) = isLinearSearch s := by
  rw [isLinearSearch, isLinearSearch,
    Pattern.occurs_in_margins _ index_bounded_for_takes_solid front s back ahead behind,
    Pattern.occurs_in_margins _ equality_if_takes_solid front s back ahead behind]

end Searches

theorem margin_not_name (c : Char) (margin : isMargin c = true) : isNameChar c = false := by
  rw [Bool.eq_false_iff]
  intro inName
  rw [isMargin, name_not_white c inName, Bool.false_or, beq_iff_eq] at margin
  rw [margin] at inName
  revert inName
  decide

-- A definition reaches to a closing brace, which no margin has.
theorem definition_before_margin (s back : Text) (margin : Margin back) :
    definition? (s ++ back) = definition? s := by
  ext name
  rw [definition_some_iff, definition_some_iff]
  refine and_congr_right fun _ => and_congr_right fun _ => ⟨?_, ?_⟩
  · intro shape
    obtain ⟨_, split, gap, parameters, space, body, rest, white, closed, blank, rfl⟩ := shape
    have toBrace : s ++ back = (name ++ (gap ++ '(' :: (parameters ++ ')' :: (space ++ '\x7b' :: body)))) ++
        '\x7d' :: rest := by
      simpa using split
    obtain ⟨kept, -, whole⟩ := Text.cut_ahead '\x7d' s back _ rest (margin.without (by decide)) toBrace
    exact ⟨_, by simpa using whole, gap, parameters, space, body, kept, white, closed, blank, rfl⟩
  · intro shape
    obtain ⟨after, rfl, opens⟩ := shape
    exact ⟨after ++ back, List.append_assoc _ _ _, opens_body_append after back opens⟩

theorem defined_name_after_margin (front s : Text) (margin : Margin front) :
    definedName? (front ++ s) = definedName? s := by
  change Text.firstSuffix? definition? (front ++ s) = Text.firstSuffix? definition? s
  induction front with
  | nil => rfl
  | cons c front ih =>
      obtain ⟨first, rest⟩ := List.forall_mem_cons.mp margin
      rw [List.cons_append, Text.firstSuffix?, definition_outside_name c _ (margin_not_name c first)]
      exact ih rest

theorem defined_name_before_margin (s back : Text) (margin : Margin back) :
    definedName? (s ++ back) = definedName? s := by
  change Text.firstSuffix? definition? (s ++ back) = Text.firstSuffix? definition? s
  induction s with
  | nil =>
      have onlyMargin := defined_name_after_margin back [] margin
      rwa [List.append_nil] at onlyMargin
  | cons c s ih =>
      have same := definition_before_margin (c :: s) back margin
      rw [List.cons_append] at same ⊢
      rw [Text.firstSuffix?, Text.firstSuffix?, same, ih]

theorem call_sites_after_margin (name front s : Text) (isName : IsName name) (margin : Margin front) :
    callSites name (front ++ s) = callSites name s := by
  induction front with
  | nil => rfl
  | cons c front ih =>
      obtain ⟨first, rest⟩ := List.forall_mem_cons.mp margin
      have unfit := call_outside_name name isName c (front ++ s) (margin_not_name c first)
      rw [List.cons_append, call_sites_cons name c _ isName unfit, ih rest]

theorem call_sites_before_margin (name s back : Text) (margin : Margin back) :
    callSites name (s ++ back) = callSites name s := by
  rw [call_sites_split, Nat.add_eq_left, List.countP_eq_zero]
  intro position _ site
  have present : back[position]? = some '(' := by
    have opening := beq_iff_eq.mp (Bool.and_eq_true_iff.mp site).1
    rwa [List.getElem?_append_right (Nat.le_add_right _ _), Nat.add_sub_cancel_left] at opening
  exact margin.without (by decide) (List.mem_of_getElem? present)

theorem recursion_in_margins (front s back : Text) (ahead : Margin front) (behind : Margin back) :
    recursion? (front ++ (s ++ back)) = recursion? s := by
  apply recursion_congr
  · rw [defined_name_after_margin front _ ahead, defined_name_before_margin s back behind]
  · intro name isName
    rw [call_sites_after_margin name front _ isName ahead, call_sites_before_margin name s back behind]

end Scan

open Text (Margin)

theorem signals_in_margins (front s back : Text) (ahead : Margin front) (behind : Margin back) :
    Signals.ofSource (front ++ (s ++ back)) = Signals.ofSource s := by
  rw [Signals.ofSource, Signals.ofSource, Scan.loops_in_margins front s back ahead behind,
    Scan.recursion_in_margins front s back ahead behind,
    Scan.binary_search_in_margins front s back ahead behind,
    Scan.linear_search_in_margins front s back ahead behind]

theorem blank_iff (s : Text) : Analysis.ofSource s = .blank ↔ Margin s := by
  rw [Margin, ← Text.trim_margin_nil_iff, Analysis.ofSource]
  by_cases blank : Text.trimMargin s = [] <;> simp [blank]

theorem narrated_text_starts (signals : Signals) :
    (Analysis.narrated signals).toText.head? = some '🔍' := by
  have opening : ∃ lines, Narration.ofSignals signals = .plain "🔍 Code Analysis Started".toList :: lines :=
    ⟨_, rfl⟩
  obtain ⟨lines, split⟩ := opening
  rw [Analysis.toText, split]
  cases lines <;> rfl

theorem blank_message_iff (s : Text) :
    (Analysis.ofSource s).toText = Analysis.blankMessage ↔ Analysis.ofSource s = .blank := by
  refine ⟨?_, fun blank => by rw [blank, Analysis.toText]⟩
  intro same
  cases analysis : Analysis.ofSource s with
  | blank => rfl
  | narrated signals =>
      have starts := narrated_text_starts signals
      rw [← analysis, same] at starts
      exact absurd starts (by decide)

/-- White space and byte-order marks around a source change nothing in its analysis. The analysis is
blank exactly if the source has nothing else in it, and only then its text is the message for that. -/
theorem margins_irrelevant (front s back : Text) (ahead : Margin front) (behind : Margin back) :
    Analysis.ofSource (front ++ (s ++ back)) = Analysis.ofSource s ∧
      (Analysis.ofSource s = .blank ↔ Margin s) ∧
      ((Analysis.ofSource s).toText = Analysis.blankMessage ↔ Margin s) := by
  refine ⟨?_, blank_iff s, (blank_message_iff s).trans (blank_iff s)⟩
  have blank : Text.trimMargin (front ++ (s ++ back)) = [] ↔ Text.trimMargin s = [] := by
    rw [Text.trim_margin_nil_iff, Text.trim_margin_nil_iff, List.forall_mem_append, List.forall_mem_append]
    exact ⟨fun all => all.2.1, fun all => ⟨ahead, all, behind⟩⟩
  rw [Analysis.ofSource, Analysis.ofSource, signals_in_margins front s back ahead behind]
  simp only [blank]

-- A call in the last line, a loop in the first one, and margins that join both.
def edgedSource : Text :=
  "for f() \x7b\n\x7d f(".toList

theorem edged_source_in_margins :
    Margin "\r\n \ufeff\u00a0".toList ∧ Margin "\ufeff \r\n\n\u3000".toList ∧
      Analysis.ofSource ("\r\n \ufeff\u00a0".toList ++ (edgedSource ++ "\ufeff \r\n\n\u3000".toList)) =
        .narrated ⟨1, 1, some ⟨['f'], 2⟩, false, false⟩ ∧
      (Analysis.ofSource edgedSource).toText ≠ Analysis.blankMessage := by
  have ahead : Margin "\r\n \ufeff\u00a0".toList := by decide
  have behind : Margin "\ufeff \r\n\n\u3000".toList := by decide
  obtain ⟨same, -, told⟩ := margins_irrelevant _ edgedSource _ ahead behind
  refine ⟨ahead, behind, same.trans (by decide +kernel), fun message => ?_⟩
  exact absurd (told.mp message) (by decide)

end OrderOfGrowth
