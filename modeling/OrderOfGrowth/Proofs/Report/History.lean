import OrderOfGrowth.Report.Page

/-!
Presenters and their histories. Whatever steps are taken, the markup beside the source is the one of
the last text that was set, and the shown analysis, with its markup, is the one of the text at the
step that the analyzer last ran in (`presenter_remembers`).
-/

set_option autoImplicit false

namespace OrderOfGrowth.Report

open Markup (Highlighter Highlighting)

inductive Step where
  | setSource (text : Text)
  | analyze
  | render (title sourceName : Text)

namespace Step

def text? : Step → Option Text
  | setSource text => some text
  | _ => none

def isRender : Step → Bool
  | render _ _ => true
  | _ => false

def runsNothing (step : Step) : Prop :=
  ∃ text, step = setSource text

end Step

def afterStep (presenter : Presenter) : Step → Presenter
  | .setSource text => presenter.setSource text
  | .analyze => presenter.analyze
  | .render title sourceName => (render title sourceName presenter).1

def afterSteps (start : Presenter) (steps : List Step) : Presenter :=
  steps.foldl afterStep start

def lastText (first : Text) (steps : List Step) : Text :=
  (steps.filterMap Step.text?).getLast?.getD first

-- The steps in front of the one that the analyzer last ran in: the last that asked for an analysis
-- or, if none did, the first rendering, which could not do without one.
def LastAnalyzedAfter (steps before : List Step) : Prop :=
  (∃ later, steps = before ++ .analyze :: later ∧ .analyze ∉ later) ∨
    (.analyze ∉ steps ∧ (∀ step ∈ before, step.isRender = false) ∧
      ∃ title sourceName later, steps = before ++ .render title sourceName :: later)

structure Shows (presenter : Presenter) (text : Text) : Prop where
  analysis : presenter.analysis = some (Analysis.ofSource text)
  outputMarkup : presenter.outputMarkup = presenter.markup (Analysis.ofSource text).toText

-- What a presenter that began with the text `first` holds after some steps.
structure Remembers (highlighting : Highlighting) (language first : Text) (steps : List Step)
    (presenter : Presenter) : Prop where
  highlighting : presenter.highlighting = highlighting
  language : presenter.language = language
  source : presenter.source = lastText first steps
  sourceMarkup : presenter.sourceMarkup = presenter.markup presenter.source
  unanalyzed : presenter.analysis = none ↔ ∀ step ∈ steps, step.runsNothing
  noOutput : presenter.analysis = none → presenter.outputMarkup = []
  shown : presenter.analysis ≠ none →
    ∃ before, LastAnalyzedAfter steps before ∧ Shows presenter (lastText first before)

theorem last_text_append (first : Text) (steps : List Step) (step : Step) :
    lastText first (steps ++ [step]) = step.text?.getD (lastText first steps) := by
  cases step <;> simp [lastText, Step.text?, List.filterMap_append]

theorem last_analyzed_append (steps before : List Step) (step : Step) (other : step ≠ .analyze)
    (last : LastAnalyzedAfter steps before) : LastAnalyzedAfter (steps ++ [step]) before := by
  rcases last with ⟨later, rfl, none⟩ | ⟨none, noRender, title, sourceName, later, rfl⟩
  · exact .inl ⟨later ++ [step], by simp, by simp [none, other.symm]⟩
  · exact .inr ⟨by simpa [other.symm] using none, noRender, title, sourceName, later ++ [step], by simp⟩

theorem prepare_analyzed (presenter : Presenter) (analyzed : presenter.analysis ≠ none) :
    presenter.prepare = presenter := by
  rw [Presenter.prepare]
  cases shown : presenter.analysis with
  | some analysis => rfl
  | none => exact absurd shown analyzed

theorem prepare_unanalyzed (presenter : Presenter) (unanalyzed : presenter.analysis = none) :
    presenter.prepare = presenter.analyze := by
  rw [Presenter.prepare, unanalyzed]

theorem runs_nothing_iff (step : Step) :
    step.runsNothing ↔ step ≠ .analyze ∧ step.isRender = false := by
  cases step <;> simp [Step.runsNothing, Step.isRender]

variable (highlighting : Highlighting) (language first : Text)

theorem remembers_set_source (steps : List Step) (presenter : Presenter) (text : Text)
    (remembers : Remembers highlighting language first steps presenter) :
    Remembers highlighting language first (steps ++ [.setSource text]) (presenter.setSource text) where
  highlighting := remembers.highlighting
  language := remembers.language
  source := (last_text_append first steps (.setSource text)).symm
  sourceMarkup := rfl
  unanalyzed := by
    have idle : Step.runsNothing (.setSource text) := ⟨text, rfl⟩
    rw [List.forall_mem_append, List.forall_mem_singleton]
    exact remembers.unanalyzed.trans (and_iff_left idle).symm
  noOutput := remembers.noOutput
  shown analyzed := by
    obtain ⟨before, last, shows⟩ := remembers.shown analyzed
    exact ⟨before, last_analyzed_append steps before _ (by simp) last, shows.analysis, shows.outputMarkup⟩

-- The two steps that run the analyzer do it on the text that was set last.
theorem remembers_analyze (steps : List Step) (presenter : Presenter)
    (remembers : Remembers highlighting language first steps presenter) (step : Step)
    (keepsText : step.text? = none) (last : LastAnalyzedAfter (steps ++ [step]) steps) :
    Remembers highlighting language first (steps ++ [step]) presenter.analyze where
  highlighting := remembers.highlighting
  language := remembers.language
  source := by
    rw [last_text_append, keepsText]
    exact remembers.source
  sourceMarkup := remembers.sourceMarkup
  unanalyzed := by
    have runs : ¬ step.runsNothing := by
      rintro ⟨text, rfl⟩
      cases keepsText
    rw [List.forall_mem_append, List.forall_mem_singleton]
    constructor
    · intro none
      cases none
    · intro idle
      exact absurd idle.2 runs
  noOutput none := by cases none
  shown _ := by
    refine ⟨steps, last, ?_, ?_⟩
    · rw [← remembers.source]
      rfl
    · rw [← remembers.source]
      rfl

theorem remembers_shown (steps : List Step) (presenter : Presenter) (title sourceName : Text)
    (remembers : Remembers highlighting language first steps presenter)
    (analyzed : presenter.analysis ≠ none) :
    Remembers highlighting language first (steps ++ [.render title sourceName]) presenter where
  highlighting := remembers.highlighting
  language := remembers.language
  source := by
    rw [last_text_append]
    exact remembers.source
  sourceMarkup := remembers.sourceMarkup
  unanalyzed := by
    constructor
    · intro none
      exact absurd none analyzed
    · intro idle
      exact remembers.unanalyzed.mpr fun step member => idle step (List.mem_append_left _ member)
  noOutput := remembers.noOutput
  shown _ := by
    obtain ⟨before, last, shows⟩ := remembers.shown analyzed
    exact ⟨before, last_analyzed_append steps before _ (by simp) last, shows⟩

theorem remembers_render (steps : List Step) (presenter : Presenter) (title sourceName : Text)
    (remembers : Remembers highlighting language first steps presenter) :
    Remembers highlighting language first (steps ++ [.render title sourceName])
      (render title sourceName presenter).1 := by
  rw [render]
  by_cases unanalyzed : presenter.analysis = none
  · -- Nothing ran the analyzer before, so this is the first rendering.
    have idle := fun step member =>
      (runs_nothing_iff step).mp (remembers.unanalyzed.mp unanalyzed step member)
    rw [prepare_unanalyzed presenter unanalyzed]
    apply remembers_analyze highlighting language first steps presenter remembers _ rfl
    refine .inr ⟨?_, fun step member => (idle step member).2, title, sourceName, [], rfl⟩
    intro member
    rcases List.mem_append.mp member with before | last
    · exact (idle _ before).1 rfl
    · cases List.mem_singleton.mp last
  · rw [prepare_analyzed presenter unanalyzed]
    exact remembers_shown highlighting language first steps presenter title sourceName remembers unanalyzed

theorem remembers_step (steps : List Step) (presenter : Presenter) (step : Step)
    (remembers : Remembers highlighting language first steps presenter) :
    Remembers highlighting language first (steps ++ [step]) (afterStep presenter step) := by
  cases step with
  | setSource text => exact remembers_set_source highlighting language first steps presenter text remembers
  | analyze =>
      exact remembers_analyze highlighting language first steps presenter remembers .analyze rfl
        (.inl ⟨[], rfl, List.not_mem_nil⟩)
  | render title sourceName =>
      exact remembers_render highlighting language first steps presenter title sourceName remembers

theorem remembers_steps (steps taken : List Step) (presenter : Presenter)
    (remembers : Remembers highlighting language first taken presenter) :
    Remembers highlighting language first (taken ++ steps) (afterSteps presenter steps) := by
  induction steps generalizing taken presenter with
  | nil =>
      rw [List.append_nil]
      exact remembers
  | cons step steps ih =>
      have next := ih (taken ++ [step]) (afterStep presenter step)
        (remembers_step highlighting language first taken presenter step remembers)
      rw [List.append_assoc] at next
      exact next

def fresh (sample : Bool) : Presenter :=
  if sample then .withSample highlighting language else .empty highlighting language

-- An empty presenter has highlighted nothing yet, and that has to be what highlighting nothing gives.
theorem remembers_empty (blank : highlighting language [] = []) :
    Remembers highlighting language [] [] (.empty highlighting language) where
  highlighting := rfl
  language := rfl
  source := rfl
  sourceMarkup := blank.symm
  unanalyzed := by simp [Presenter.empty]
  noOutput _ := rfl
  shown analyzed := absurd rfl analyzed

theorem remembers_sample :
    Remembers highlighting language Presenter.sampleSource [] (.withSample highlighting language) where
  highlighting := rfl
  language := rfl
  source := rfl
  sourceMarkup := rfl
  unanalyzed := by simp [Presenter.withSample, Presenter.setSource, Presenter.empty]
  noOutput _ := rfl
  shown analyzed := absurd rfl analyzed

theorem remembers_fresh (sample : Bool) (blank : sample = true ∨ highlighting language [] = []) :
    Remembers highlighting language (fresh highlighting language sample).source []
      (fresh highlighting language sample) := by
  cases sample with
  | true => exact remembers_sample highlighting language
  | false => exact remembers_empty highlighting language (blank.resolve_left Bool.false_ne_true)

theorem remembers_run (sample : Bool) (blank : sample = true ∨ highlighting language [] = []) (steps : List Step) :
    Remembers highlighting language (fresh highlighting language sample).source steps
      (afterSteps (fresh highlighting language sample) steps) :=
  remembers_steps highlighting language _ steps [] _ (remembers_fresh highlighting language sample blank)

-- Both ways to highlight leave an empty text empty.
theorem highlight_nil (highlighter : Highlighter) (language : Text) : highlighter.highlight language [] = [] := by
  have pieces : highlighter.piecesOf language [] = [⟨none, []⟩] := by
    have tokens : Markup.pieces [] = [⟨none, []⟩] := by
      rw [Markup.pieces, Markup.Token.all, Text.findAll, Text.findAllFrom]
      rfl
    cases highlighter with
    | plain => rfl
    | tokens => simp [Highlighter.piecesOf, tokens]
  rw [Highlighter.highlight, pieces]
  rfl

-- A text that is replaced behind its analysis.
def replacedText : List Step :=
  [.setSource "g() \x7b \x7d".toList, .analyze, .setSource ['x']]

-- A highlighter that marks even an empty text.
def bracketed : Highlighting :=
  fun _ s => '(' :: (s ++ [')'])

end OrderOfGrowth.Report
