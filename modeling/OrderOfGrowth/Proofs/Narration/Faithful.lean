import OrderOfGrowth.Proofs.Narration.Legible
import OrderOfGrowth.Proofs.Narration.Verdicts
import OrderOfGrowth.Proofs.Text.Split

/-!
What the text of a narration keeps. The lines are found again by splitting it at its line feeds
(`of_text_to_text`), and the lines tell all that the signals say of loops and recursion
(`alike_of_lines`). So two texts are the same exactly if the signals are told alike
(`narration_faithful`).
-/

set_option autoImplicit false

namespace OrderOfGrowth

def Line.parts (line : Line) : List Text :=
  if line.opensSection then [[], line.text] else [line.text]

namespace Narration

open Text (decimal)

-- The lines that parts of a text stand for. An empty part opens a section with the part behind it.
def ofParts : List Text → List Line
  | [] => []
  | [] :: part :: parts => .opening part :: ofParts parts
  | part :: parts => .plain part :: ofParts parts

def ofText (text : Text) : List Line :=
  ofParts (Text.splitOn '\n' text)

theorem split_shown (line : Line) (rest : Text) (single : '\n' ∉ line.text) :
    Text.splitOn '\n' (line.shown ++ '\n' :: rest) = line.parts ++ Text.splitOn '\n' rest := by
  rw [Line.shown, Line.parts]
  split
  · rw [List.cons_append, Text.splitOn, if_pos rfl, Text.split_on_part '\n' _ _ single]
    rfl
  · exact Text.split_on_part '\n' _ _ single

theorem split_shown_last (line : Line) (single : '\n' ∉ line.text) :
    Text.splitOn '\n' line.shown = line.parts := by
  rw [Line.shown, Line.parts]
  split
  · rw [Text.splitOn, if_pos rfl, Text.split_on_last '\n' _ single]
  · exact Text.split_on_last '\n' _ single

theorem split_to_text (first : Line) (lines : List Line) (single : ∀ line ∈ first :: lines, '\n' ∉ line.text) :
    Text.splitOn '\n' (toText (first :: lines)) = (first :: lines).flatMap Line.parts := by
  induction lines generalizing first with
  | nil =>
      rw [List.flatMap_cons, List.flatMap_nil, List.append_nil]
      exact split_shown_last first (single first List.mem_cons_self)
  | cons second lines ih =>
      rw [List.forall_mem_cons] at single
      have joined : toText (first :: second :: lines) = first.shown ++ '\n' :: toText (second :: lines) := by
        simp [toText, Text.joinWith]
      rw [joined, split_shown first _ single.1, ih second single.2, ← List.flatMap_cons]

theorem of_parts_line (line : Line) (parts : List Text) (shown : line.text ≠ []) :
    ofParts (line.parts ++ parts) = line :: ofParts parts := by
  obtain ⟨text, opens⟩ := line
  cases text with
  | nil => exact absurd rfl shown
  | cons c text => cases opens <;> rfl

theorem of_parts_lines (lines : List Line) (shown : ∀ line ∈ lines, line.text ≠ []) :
    ofParts (lines.flatMap Line.parts) = lines := by
  induction lines with
  | nil => rfl
  | cons line lines ih =>
      rw [List.forall_mem_cons] at shown
      rw [List.flatMap_cons, of_parts_line line _ shown.1, ih shown.2]

theorem of_text_to_text (lines : List Line) (some : lines ≠ []) (legible : ∀ line ∈ lines, line.Legible) :
    ofText (toText lines) = lines := by
  cases lines with
  | nil => exact absurd rfl some
  | cons first lines =>
      rw [ofText, split_to_text first lines fun line member => (legible line member).single]
      exact of_parts_lines _ fun line member => (legible line member).shown

theorem lines_ne_nil (signals : Signals) : ofSignals signals ≠ [] :=
  fun none => nomatch none

theorem of_text_signals (signals : Signals) (consistent : signals.Consistent) :
    ofText (toText (ofSignals signals)) = ofSignals signals :=
  of_text_to_text _ (lines_ne_nil signals) (lines_legible signals consistent)

def countMark : Text :=
  "➡️ Detected ".toList

def levelMark : Text :=
  "➡️ Loop nesting level: ".toList

def shapeMark : Text :=
  "🔎 Detected pattern of ".toList

def nameMark : Text :=
  "🔁 Recursive function detected: ".toList

def callsMark : Text :=
  "➡️ Recursive calls: ".toList

section Marks

variable (signals : Signals)

-- A mark of which only the two lines in front of the verdict on loops can speak.
theorem heading_told (mark : Text) (loops : told mark (ofSignals signals) = told mark (loopLines signals))
    (none : told mark [.opening "❌ No loops detected".toList] = [])
    (verdict : told mark (loopVerdict signals) = []) :
    told mark (ofSignals signals) =
      if signals.loopCount = 0 then []
      else told mark [.opening ("➡️ Detected ".toList ++ decimal signals.loopCount ++ " loop(s)".toList),
        .plain ("➡️ Loop nesting level: ".toList ++ decimal signals.loopDepth)] := by
  rw [loops, loopLines]
  split
  · exact none
  · rw [told_append, verdict, List.append_nil]

theorem count_told : told countMark (ofSignals signals) =
    if signals.loopCount = 0 then [] else [decimal signals.loopCount ++ " loop(s)".toList] := by
  have silent : ∀ recursion, told countMark (recursionLines recursion) = [] :=
    fun recursion => master_case_silent countMark recursion.callCount rfl rfl rfl
  apply heading_told signals countMark (told_loops countMark signals rfl silent rfl) rfl
  unfold loopVerdict nestingVerdict
  split_ifs <;> rfl

theorem level_told : told levelMark (ofSignals signals) =
    if signals.loopCount = 0 then [] else [decimal signals.loopDepth] := by
  have silent : ∀ recursion, told levelMark (recursionLines recursion) = [] :=
    fun recursion => master_case_silent levelMark recursion.callCount rfl rfl rfl
  apply heading_told signals levelMark (told_loops levelMark signals rfl silent rfl) rfl
  unfold loopVerdict nestingVerdict
  split_ifs <;> rfl

theorem shape_told : told shapeMark (ofSignals signals) =
    if signals.loopCount = 0 then []
    else if signals.isBinarySearch then ["Binary Search".toList]
    else if signals.isLinearSearch then ["Linear Search".toList]
    else [] := by
  have silent : ∀ recursion, told shapeMark (recursionLines recursion) = [] :=
    fun recursion => master_case_silent shapeMark recursion.callCount rfl rfl rfl
  rw [told_loops shapeMark signals rfl silent rfl]
  unfold loopLines loopVerdict nestingVerdict
  split_ifs <;> rfl

theorem name_told : told nameMark (ofSignals signals) =
    (signals.recursion.map fun recursion => [recursion.functionName]).getD [] := by
  rw [told_recursion nameMark signals (by decide) (by decide)]
  cases signals.recursion with
  | none => rfl
  | some recursion =>
      simp only [Option.map_some, Option.getD_some]
      rw [recursionLines, told_append, master_case_silent nameMark _ rfl rfl rfl]
      rfl

theorem calls_told : told callsMark (ofSignals signals) =
    (signals.recursion.map fun recursion => [decimal recursion.callCount]).getD [] := by
  have loops : told callsMark (loopLines signals) = [] := by
    unfold loopLines loopVerdict nestingVerdict
    split_ifs <;> rfl
  rw [told_recursion_only callsMark signals rfl loops rfl]
  cases signals.recursion with
  | none => rfl
  | some recursion =>
      simp only [Option.map_some, Option.getD_some]
      rw [recursionLines, told_append, master_case_silent callsMark _ rfl rfl rfl]
      rfl

end Marks

end Narration

-- Signals that differ at most in what is not narrated: without loops no search is, and a linear
-- search is not where there is a binary one.
structure Signals.ToldAlike (first second : Signals) : Prop where
  loopCount : first.loopCount = second.loopCount
  loopDepth : first.loopDepth = second.loopDepth
  recursion : first.recursion = second.recursion
  isBinarySearch : 0 < first.loopCount → first.isBinarySearch = second.isBinarySearch
  isLinearSearch : 0 < first.loopCount → first.isBinarySearch = false →
    first.isLinearSearch = second.isLinearSearch

namespace Narration

open Text (decimal)

theorem lines_of_alike (first second : Signals) (alike : first.ToldAlike second) :
    ofSignals first = ofSignals second := by
  obtain ⟨count, depth, recursion, binary, linear⟩ := alike
  have loops : loopLines first = loopLines second := by
    rw [loopLines, loopLines, count, depth]
    by_cases none : second.loopCount = 0
    · rw [if_pos none, if_pos none]
    have some : 0 < first.loopCount := by omega
    have verdict : loopVerdict first = loopVerdict second := by
      rw [loopVerdict, loopVerdict, depth, ← binary some]
      cases found : first.isBinarySearch with
      | true => rfl
      | false => rw [linear some found]
    rw [verdict]
  rw [ofSignals, ofSignals, loops, recursion, count]

section Same

variable (first second : Signals) (same : ofSignals first = ofSignals second)

include same

theorem same_count : first.loopCount = second.loopCount := by
  have told := congrArg (told countMark) same
  rw [count_told, count_told] at told
  by_cases none : first.loopCount = 0
  · rw [if_pos none] at told
    by_cases other : second.loopCount = 0
    · rw [none, other]
    · rw [if_neg other] at told
      cases told
  · rw [if_neg none] at told
    by_cases other : second.loopCount = 0
    · rw [if_pos other] at told
      cases told
    · rw [if_neg other] at told
      have digits := List.append_cancel_right (List.cons.inj told).1
      exact Text.decimal_injective digits

theorem same_depth (consistent : first.Consistent) (other : second.Consistent) :
    first.loopDepth = second.loopDepth := by
  have count := same_count first second same
  have told := congrArg (told levelMark) same
  rw [level_told, level_told, ← count] at told
  by_cases none : first.loopCount = 0
  · rw [consistent.depthZero.mpr none, other.depthZero.mpr (count ▸ none)]
  · rw [if_neg none, if_neg none] at told
    exact Text.decimal_injective (List.cons.inj told).1

theorem same_recursion : first.recursion = second.recursion := by
  have names := congrArg (told nameMark) same
  have calls := congrArg (told callsMark) same
  rw [name_told, name_told] at names
  rw [calls_told, calls_told] at calls
  cases found : first.recursion with
  | none =>
      cases other : second.recursion with
      | none => rfl
      | some recursion => simp [found, other] at names
  | some recursion =>
      cases other : second.recursion with
      | none => simp [found, other] at names
      | some twin =>
          simp only [found, other, Option.map_some, Option.getD_some, List.cons.injEq, and_true] at names calls
          obtain ⟨name, count⟩ := recursion
          obtain ⟨twinName, twinCount⟩ := twin
          have sameCount : count = twinCount := Text.decimal_injective calls
          rw [sameCount]
          simp only at names
          rw [names]

theorem same_shape (loops : 0 < first.loopCount) : first.isBinarySearch = second.isBinarySearch ∧
    (first.isBinarySearch = false → first.isLinearSearch = second.isLinearSearch) := by
  have told := congrArg (told shapeMark) same
  have none : ¬ first.loopCount = 0 := by omega
  rw [shape_told, shape_told, ← same_count first second same, if_neg none, if_neg none] at told
  revert told
  cases first.isBinarySearch <;> cases second.isBinarySearch <;> cases first.isLinearSearch <;>
    cases second.isLinearSearch <;> decide

end Same

theorem alike_of_lines (first second : Signals) (consistent : first.Consistent) (other : second.Consistent)
    (same : ofSignals first = ofSignals second) : first.ToldAlike second where
  loopCount := same_count first second same
  loopDepth := same_depth first second same consistent other
  recursion := same_recursion first second same
  isBinarySearch := fun loops => (same_shape first second same loops).1
  isLinearSearch := fun loops => (same_shape first second same loops).2

theorem text_eq_iff (first second : Signals) (consistent : first.Consistent) (other : second.Consistent) :
    toText (ofSignals first) = toText (ofSignals second) ↔ first.ToldAlike second := by
  constructor
  · intro same
    have lines := congrArg ofText same
    rw [of_text_signals first consistent, of_text_signals second other] at lines
    exact alike_of_lines first second consistent other lines
  · intro alike
    rw [lines_of_alike first second alike]

theorem narrated_solid (source : Text) (solid : ∃ c ∈ source, Text.isMargin c = false) :
    Analysis.ofSource source = .narrated (Signals.ofSource source) := by
  apply if_neg
  rw [Text.trim_margin_nil_iff]
  intro blank
  obtain ⟨c, member, inside⟩ := solid
  rw [blank c member] at inside
  cases inside

/-- Two sources that are not blank are narrated with the same text exactly if their signals are told
alike, and the text gives the lines back. -/
theorem narration_faithful (s t : Text) (solid : ∃ c ∈ s, Text.isMargin c = false)
    (other : ∃ c ∈ t, Text.isMargin c = false) :
    ∃ first second, Analysis.ofSource s = .narrated first ∧ Analysis.ofSource t = .narrated second ∧
      ((Analysis.ofSource s).toText = (Analysis.ofSource t).toText ↔ first.ToldAlike second) ∧
      (Analysis.ofSource s).lines? = some (ofText (Analysis.ofSource s).toText) := by
  have first := Signals.consistent_source s
  have second := Signals.consistent_source t
  refine ⟨_, _, narrated_solid s solid, narrated_solid t other, ?_, ?_⟩
  · rw [narrated_solid s solid, narrated_solid t other]
    exact text_eq_iff _ _ first second
  · rw [narrated_solid s solid]
    exact congrArg some (of_text_signals _ first).symm

-- A linear search in a line that opens no loop, and a source that has nothing of it.
def idleSearch : Text :=
  "g() \x7b g(n); for (i < n) if (a == b) \x7d".toList

def idleSource : Text :=
  "g() \x7b g(n) \x7d".toList

theorem idle_search_untold :
    (∃ c ∈ idleSearch, Text.isMargin c = false) ∧ (∃ c ∈ idleSource, Text.isMargin c = false) ∧
      (Signals.ofSource idleSearch).isLinearSearch ≠ (Signals.ofSource idleSource).isLinearSearch ∧
      (Analysis.ofSource idleSearch).toText = (Analysis.ofSource idleSource).toText ∧
      (Analysis.ofSource idleSearch).lines? = some (ofText (Analysis.ofSource idleSearch).toText) := by
  have solid : ∃ c ∈ idleSearch, Text.isMargin c = false := ⟨'g', by decide, by decide⟩
  have other : ∃ c ∈ idleSource, Text.isMargin c = false := ⟨'g', by decide, by decide⟩
  have search : Signals.ofSource idleSearch = ⟨0, 0, some ⟨['g'], 2⟩, false, true⟩ := by decide +kernel
  have plain : Signals.ofSource idleSource = ⟨0, 0, some ⟨['g'], 2⟩, false, false⟩ := by decide +kernel
  obtain ⟨first, second, narrated, narratedToo, told, lines⟩ := narration_faithful idleSearch idleSource solid other
  obtain rfl := Analysis.narrated.inj (narrated.symm.trans ((narrated_solid _ solid).trans (by rw [search])))
  obtain rfl := Analysis.narrated.inj (narratedToo.symm.trans ((narrated_solid _ other).trans (by rw [plain])))
  refine ⟨solid, other, by rw [search, plain]; decide, told.mpr ⟨rfl, rfl, rfl, ?_, ?_⟩, lines⟩
  · intro loops
    exact absurd loops (Nat.lt_irrefl 0)
  · intro loops
    exact absurd loops (Nat.lt_irrefl 0)

end Narration

end OrderOfGrowth
