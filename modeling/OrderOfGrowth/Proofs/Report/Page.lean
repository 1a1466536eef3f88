import OrderOfGrowth.Proofs.Markup.Value
import OrderOfGrowth.Proofs.Report.History
import OrderOfGrowth.Proofs.Report.Outline

/-!
The page of a presenter. Whatever its input, the page is the fixed text with values and highlighted
texts in its holes: the tags that are left without the spans depend on nothing but whether a table is
shown, and the table, if there is one, holds the signals (`input_stays_text`).
-/

set_option autoImplicit false

namespace OrderOfGrowth.Report

open Markup (Highlighter StandsFor IsMarkup dropTags readValue)

def Segment.symbols {α β : Type} (embed : α → β) : Segment α → List (Symbol β)
  | .fixed text => text.toList.map .inl
  | .hole place => [.inr (embed place)]

-- The fixed text of a page, with or without the table, and its holes.
def template (withTable : Bool) : List (Symbol (Hole ⊕ Cell)) :=
  opening.flatMap (Segment.symbols .inl) ++
    (if withTable then table.flatMap (Segment.symbols .inr) else []) ++
    closing.flatMap (Segment.symbols .inl)

def start {σ : Type} : Place σ :=
  .content []

def tableCells : List (Hole ⊕ Cell) :=
  [.inr .loopCount, .inr .loopDepth, .inr .recursion, .inr .binarySearch, .inr .linearSearch]

-- The holes of a page as they come: the title stands in the head and above the page.
def templateHoles (withTable : Bool) : List (Context × (Hole ⊕ Cell)) :=
  [(.content, .inl .title), (.content, .inl .title), (.content, .inl .sourceName), (.value, .inl .language),
    (.content, .inl .sourceMarkup), (.content, .inl .outputMarkup)] ++
    if withTable then tableCells.map (Context.content, ·) else []

-- What is computed of the fixed text alone.
structure Sound (withTable : Bool) (symbols : List (Symbol (Hole ⊕ Cell))) : Prop where
  spanless : withoutSpans symbols = true
  holes : holes start symbols = templateHoles withTable
  table : (tags (read Symbol.char? start symbols).1).contains "table".toList = withTable
  cells : cells false (read Symbol.char? start symbols).1 =
    if withTable then tableCells.map fun cell => [Sum.inr cell] else []

instance (withTable : Bool) (symbols : List (Symbol (Hole ⊕ Cell))) : Decidable (Sound withTable symbols) :=
  decidable_of_iff
    (withoutSpans symbols = true ∧
      Report.holes start symbols = templateHoles withTable ∧
      (tags (read Symbol.char? start symbols).1).contains "table".toList = withTable ∧
      Report.cells false (read Symbol.char? start symbols).1 =
        if withTable then tableCells.map fun cell => [Sum.inr cell] else [])
    ⟨fun ⟨a, b, c, d⟩ => ⟨a, b, c, d⟩, fun ⟨a, b, c, d⟩ => ⟨a, b, c, d⟩⟩

theorem template_sound (withTable : Bool) : Sound withTable (template withTable) := by
  -- The literals become lists of characters first; to unpack their bytes takes the kernel far longer.
  cases withTable <;>
    simp only [template, opening, table, closing, List.flatMap_cons, List.flatMap_nil,
      Segment.symbols, if_true, if_false, Bool.false_eq_true] <;>
    repeat rw [String.toList_ofList]
  · decide +kernel
  · decide +kernel

theorem template_holes (withTable : Bool) : holes start (template withTable) = templateHoles withTable :=
  (template_sound withTable).holes

theorem hole_placed (withTable : Bool) (hole : Context × (Hole ⊕ Cell)) (member : hole ∈ templateHoles withTable) :
    hole.1 = .content ∨ hole = (.value, .inl .language) := by
  revert hole
  cases withTable <;> simp [templateHoles, tableCells]

theorem filled_segments {α β : Type} (fill : β → Text) (embed : α → β) (segments : List (Segment α)) :
    filled fill (segments.flatMap (Segment.symbols embed)) =
      segments.flatMap (Segment.fill (fill ∘ embed)) := by
  rw [filled, List.flatMap_assoc]
  congr 1
  funext segment
  cases segment with
  | fixed text => simp [Segment.symbols, Segment.fill, Symbol.filled, List.flatMap_map]
  | hole place => simp [Segment.symbols, Segment.fill, Symbol.filled]

namespace View

def cellText (view : View) (place : Cell) : Text :=
  match view.signals with
  | some signals => cell signals place
  | none => []

def filling (view : View) : Hole ⊕ Cell → Text :=
  Sum.elim view.fill view.cellText

theorem page_filled (view : View) : view.page = filled view.filling (template view.signals.isSome) := by
  have around (segments : List (Segment Hole)) :
      filled view.filling (segments.flatMap (Segment.symbols .inl)) =
        segments.flatMap (Segment.fill view.fill) :=
    filled_segments view.filling .inl segments
  have inside : filled view.filling (table.flatMap (Segment.symbols .inr)) =
      table.flatMap (Segment.fill view.cellText) :=
    filled_segments view.filling .inr table
  rw [page, template, filled_append, filled_append, around, around]
  cases shown : view.signals with
  | none => rfl
  | some signals =>
      have cells : view.cellText = cell signals := by
        funext place
        rw [cellText, shown]
      have body : table.flatMap (Segment.fill (cell signals)) =
          filled view.filling (table.flatMap (Segment.symbols .inr)) := by
        rw [inside, cells]
      simp only [body, Option.isSome_some, if_true]

end View

-- What fills the holes, such that a reader of the page meets the fixed text again.
structure Safe (fill : Hole ⊕ Cell → Text) : Prop where
  separate : ∀ hole, Separate (fill hole)
  content : ∀ hole, '<' ∉ Markup.dropTags (fill hole)
  language : '"' ∉ Markup.dropTags (fill (.inl .language))

theorem read_template (withTable : Bool) (fill : Hole ⊕ Cell → Text) (safe : Safe fill) :
    (read some start (Markup.dropTags (filled fill (template withTable)))).1 =
      (read Symbol.char? start (template withTable)).1.map (Token.filled (Markup.dropTags ∘ fill)) := by
  have sound := template_sound withTable
  rw [drop_tags_filled fill _ sound.spanless safe.separate]
  have readings := read_filled (Markup.dropTags ∘ fill) start (template withTable) (by
    intro hole member
    rw [template_holes] at member
    rcases hole_placed withTable hole member with content | rfl
    · rw [content]
      exact safe.content hole.2
    · exact safe.language)
  exact congrArg Prod.fst readings

def cellValue (signals : Signals) : Cell → Text
  | .loopCount => Text.decimal signals.loopCount
  | .loopDepth => Text.decimal signals.loopDepth
  | .recursion =>
    match signals.recursion with
    | some recursion =>
      recursion.functionName ++ " (".toList ++ Text.decimal recursion.callCount ++ " calls)".toList
    | none => ['-']
  | .binarySearch => Analysis.yesNo signals.isBinarySearch
  | .linearSearch => Analysis.yesNo signals.isLinearSearch

theorem decimal_plain (n : Nat) : ∀ mark ∈ '&' :: Markup.marks, mark ∉ Text.decimal n := by
  apply Markup.none_of_all
  rw [List.all_eq_true]
  intro c inside
  have others : ('&' :: Markup.marks).all (!Char.isDigit ·) = true := by decide
  have digit := Nat.isDigit_of_mem_toDigits (by decide) (by decide) inside
  rw [Bool.not_eq_true', ← Bool.not_eq_true, List.contains_iff_mem]
  intro member
  have other := List.all_eq_true.mp others c member
  rw [digit] at other
  cases other

theorem yes_no_plain (b : Bool) : ∀ mark ∈ '&' :: Markup.marks, mark ∉ Analysis.yesNo b := by
  apply Markup.none_of_all
  cases b <;> decide

theorem cell_stands (signals : Signals) (place : Cell) :
    StandsFor (View.cell signals place) (cellValue signals place) := by
  cases place with
  | loopCount => exact Markup.plain_stands _ (decimal_plain _)
  | loopDepth => exact Markup.plain_stands _ (decimal_plain _)
  | binarySearch => exact Markup.plain_stands _ (yes_no_plain _)
  | linearSearch => exact Markup.plain_stands _ (yes_no_plain _)
  | recursion =>
      cases found : signals.recursion with
      | none =>
          simp only [View.cell, cellValue, found]
          exact Markup.plain_stands _ (Markup.none_of_all _ _ (by decide))
      | some recursion =>
          have opened := Markup.none_of_all ('&' :: Markup.marks) " (".toList (by decide)
          have closed := Markup.none_of_all ('&' :: Markup.marks) " calls)".toList (by decide)
          simp only [View.cell, cellValue, found, List.append_assoc]
          apply Markup.escape_value_append_stands
          intro mark member inside
          rcases List.mem_append.mp inside with front | inside
          · exact opened mark member front
          rcases List.mem_append.mp inside with count | back
          · exact decimal_plain _ mark member count
          · exact closed mark member back

-- A highlighted text: what is left of it without its spans is the text as content.
structure Displays (s text : Text) : Prop where
  markup : IsMarkup s
  text : Markup.dropTags s = Markup.escapeContent text

theorem highlight_displays (highlighter : Highlighter) (language s : Text) :
    Displays (highlighter.highlight language s) s :=
  ⟨Markup.render_is_markup _, Markup.drop_tags_highlight highlighter language s⟩

theorem stands_plain (s value : Text) (stands : StandsFor s value) : '<' ∉ s :=
  stands.unmarked '<' (by decide)

theorem safe_filling (view : View) (source output : Text) (sourceShown : Displays view.sourceMarkup source)
    (outputShown : Displays view.outputMarkup output) : Safe view.filling := by
  have place (hole : Hole ⊕ Cell) :
      (∃ value, StandsFor (view.filling hole) value) ∨ ∃ text, Displays (view.filling hole) text := by
    cases hole with
    | inl hole =>
        cases hole with
        | title => exact .inl ⟨_, Markup.escape_value_stands view.title⟩
        | sourceName => exact .inl ⟨_, Markup.escape_value_stands view.sourceName⟩
        | language => exact .inl ⟨_, Markup.escape_value_stands view.language⟩
        | sourceMarkup => exact .inr ⟨source, sourceShown⟩
        | outputMarkup => exact .inr ⟨output, outputShown⟩
    | inr place =>
        left
        cases shown : view.signals with
        | none => exact ⟨[], by simpa [View.filling, View.cellText, shown] using Markup.plain_stands [] (by simp)⟩
        | some signals =>
            exact ⟨_, by simpa [View.filling, View.cellText, shown] using cell_stands signals place⟩
  refine ⟨?_, ?_, ?_⟩
  · intro hole
    rcases place hole with ⟨value, stands⟩ | ⟨text, displays⟩
    · exact (separate_plain _ (stands_plain _ value stands)).2
    · exact is_markup_separate _ displays.markup
  · intro hole
    rcases place hole with ⟨value, stands⟩ | ⟨text, displays⟩
    · rw [(separate_plain _ (stands_plain _ value stands)).1]
      exact stands_plain _ value stands
    · rw [displays.text]
      exact (Markup.escape_content_escaped text).noOpening
  · have stands := Markup.escape_value_stands view.language
    have same : Markup.dropTags (view.filling (.inl .language)) = Markup.escapeValue view.language :=
      (separate_plain _ (stands_plain _ _ stands)).1
    rw [same]
    exact stands.unmarked '"' (by decide)

-- A run of a presenter and the rendering at its end.
structure Showing where
  highlighter : Highlighter
  language : Text
  sample : Bool
  steps : List Step
  title : Text
  sourceName : Text

namespace Showing

def rendered (showing : Showing) : Presenter × Text :=
  render showing.title showing.sourceName
    (afterSteps (fresh showing.highlighter.highlight showing.language showing.sample) showing.steps)

def presenter (showing : Showing) : Presenter :=
  showing.rendered.1

def page (showing : Showing) : Text :=
  showing.rendered.2

-- The page as a reader of markup takes it, without the spans.
def tokens (showing : Showing) : List (Token Char) :=
  (read some start (Markup.dropTags showing.page)).1

-- What the holes of its page are filled with.
structure Fills (showing : Showing) (analysis : Analysis) (fill : Hole ⊕ Cell → Text) : Prop where
  title : StandsFor (fill (.inl .title)) showing.title
  sourceName : StandsFor (fill (.inl .sourceName)) showing.sourceName
  language : StandsFor (fill (.inl .language)) showing.language
  source : Displays (fill (.inl .sourceMarkup)) showing.presenter.source
  output : Displays (fill (.inl .outputMarkup)) analysis.toText
  cells : ∀ signals, analysis = .narrated signals → ∀ place,
    StandsFor (fill (.inr place)) (cellValue signals place)
  functionName : ∀ signals recursion, analysis = .narrated signals → signals.recursion = some recursion →
    ∃ name, StandsFor name recursion.functionName ∧
      fill (.inr .recursion) =
        name ++ " (".toList ++ Text.decimal recursion.callCount ++ " calls)".toList

def view (showing : Showing) : View :=
  .ofPresenter showing.title showing.sourceName showing.presenter

-- The rendering at the end is one more step of the run.
theorem presenter_remembered (showing : Showing) :
    ∃ first steps, Remembers showing.highlighter.highlight showing.language first
      (steps ++ [.render showing.title showing.sourceName]) showing.presenter := by
  have blank := highlight_nil showing.highlighter showing.language
  have before := remembers_run _ showing.language showing.sample (.inr blank) showing.steps
  exact ⟨_, _, remembers_render _ _ _ showing.steps _ showing.title showing.sourceName before⟩

theorem presenter_shows (showing : Showing) : ∃ text, Shows showing.presenter text := by
  obtain ⟨first, steps, remembers⟩ := showing.presenter_remembered
  have analyzed : showing.presenter.analysis ≠ none := by
    intro none
    obtain ⟨text, same⟩ := remembers.unanalyzed.mp none _ (List.mem_append_right _ List.mem_cons_self)
    cases same
  obtain ⟨before, -, shows⟩ := remembers.shown analyzed
  exact ⟨_, shows⟩

theorem markup_displays (showing : Showing) (s : Text) : Displays (showing.presenter.markup s) s := by
  obtain ⟨first, steps, remembers⟩ := showing.presenter_remembered
  rw [Presenter.markup, remembers.highlighting]
  exact highlight_displays showing.highlighter _ s

theorem view_displays (showing : Showing) (analysis : Analysis)
    (shown : showing.presenter.analysis = some analysis) :
    Displays showing.view.sourceMarkup showing.presenter.source ∧
      Displays showing.view.outputMarkup analysis.toText := by
  obtain ⟨first, steps, remembers⟩ := showing.presenter_remembered
  obtain ⟨text, shows⟩ := showing.presenter_shows
  obtain rfl : Analysis.ofSource text = analysis := by
    rw [shows.analysis] at shown
    exact Option.some.inj shown
  refine ⟨?_, ?_⟩
  · have same : showing.view.sourceMarkup = _ := remembers.sourceMarkup
    rw [same]
    exact showing.markup_displays _
  · have same : showing.view.outputMarkup = _ := shows.outputMarkup
    rw [same]
    exact showing.markup_displays _

theorem view_fills (showing : Showing) (analysis : Analysis)
    (shown : showing.presenter.analysis = some analysis) : Fills showing analysis showing.view.filling := by
  obtain ⟨source, output⟩ := showing.view_displays analysis shown
  obtain ⟨first, steps, remembers⟩ := showing.presenter_remembered
  have cells (signals : Signals) (narrated : analysis = .narrated signals) (place : Cell) :
      showing.view.filling (.inr place) = View.cell signals place := by
    have signalled : showing.view.signals = some signals := by
      rw [view, View.ofPresenter, shown, narrated]
      rfl
    rw [View.filling, Sum.elim_inr, View.cellText, signalled]
  refine ⟨Markup.escape_value_stands _, Markup.escape_value_stands _, ?_, source, output, ?_, ?_⟩
  · rw [← remembers.language]
    exact Markup.escape_value_stands _
  · intro signals narrated place
    rw [cells signals narrated place]
    exact cell_stands signals place
  · intro signals recursion narrated found
    refine ⟨Markup.escapeValue recursion.functionName, Markup.escape_value_stands _, ?_⟩
    rw [cells signals narrated .recursion, View.cell, found]

theorem page_template (showing : Showing) (analysis : Analysis)
    (shown : showing.presenter.analysis = some analysis) :
    showing.page = filled showing.view.filling (template (analysis ≠ .blank)) := by
  have withTable : showing.view.signals.isSome = decide (analysis ≠ .blank) := by
    rw [view, View.ofPresenter, shown]
    cases analysis <;> rfl
  rw [← withTable]
  exact showing.view.page_filled

def tags (showing : Showing) : List Text :=
  Report.tags showing.tokens

-- The texts of the cells of its tables, decoded.
def cells (showing : Showing) : List Text :=
  (Report.cells false showing.tokens).map readValue

theorem tokens_template (showing : Showing) (analysis : Analysis)
    (shown : showing.presenter.analysis = some analysis) :
    showing.tokens = (read Symbol.char? start (template (analysis ≠ .blank))).1.map
      (Token.filled (Markup.dropTags ∘ showing.view.filling)) := by
  obtain ⟨source, output⟩ := showing.view_displays analysis shown
  rw [tokens, showing.page_template analysis shown]
  exact read_template _ _ (safe_filling showing.view _ _ source output)

theorem tags_template (showing : Showing) (analysis : Analysis)
    (shown : showing.presenter.analysis = some analysis) :
    showing.tags = Report.tags (read Symbol.char? start (template (analysis ≠ .blank))).1 := by
  rw [tags, showing.tokens_template analysis shown, tags_filled]

def expectedCells : Analysis → List Text
  | .blank => []
  | .narrated signals =>
    [cellValue signals .loopCount, cellValue signals .loopDepth, cellValue signals .recursion,
      cellValue signals .binarySearch, cellValue signals .linearSearch]

theorem cells_expected (showing : Showing) (analysis : Analysis)
    (shown : showing.presenter.analysis = some analysis) : showing.cells = expectedCells analysis := by
  have fills := showing.view_fills analysis shown
  rw [cells, showing.tokens_template analysis shown, cells_filled, (template_sound _).cells]
  cases analysis with
  | blank => rfl
  | narrated signals =>
      have value (place : Cell) :
          readValue (Markup.dropTags (showing.view.filling (.inr place))) = cellValue signals place := by
        have stands := fills.cells signals rfl place
        rw [(separate_plain _ (stands_plain _ _ stands)).1, stands.reads]
      simp [tableCells, filled, Symbol.filled, value, expectedCells]

end Showing

end OrderOfGrowth.Report
