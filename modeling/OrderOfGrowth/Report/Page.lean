import OrderOfGrowth.Format
import OrderOfGrowth.Report.Presenter

/-!
The report page: fixed text with holes. What a user chooses fills holes only, and every hole is
escaped, by `Markup.escapeValue` or, for the two texts on show, by the highlighter. The table of
signals is there exactly if the shown analysis has any.
-/

set_option autoImplicit false

namespace OrderOfGrowth.Report

inductive Hole where
  | title | sourceName | language | sourceMarkup | outputMarkup
  deriving DecidableEq, Repr

inductive Cell where
  | loopCount | loopDepth | recursion | binarySearch | linearSearch
  deriving DecidableEq, Repr

-- A part of the page: text that is always the same, or a place to be filled.
inductive Segment (α : Type) where
  | fixed (text : String)
  | hole (place : α)

def Segment.fill {α : Type} (fill : α → Text) : Segment α → Text
  | .fixed text => text.toList
  | .hole place => fill place

def opening : List (Segment Hole) :=
  [
    .fixed "<!DOCTYPE html>\n",
    .fixed "<html lang=\"en\">\n",
    .fixed "<head>\n",
    .fixed "<meta charset=\"utf-8\">\n",
    .fixed "<title>",
    .hole .title,
    .fixed "</title>\n",
    .fixed "<style>\n",
    .fixed "  body \x7b font-family: system-ui, sans-serif; margin: 2rem;",
    .fixed " background: #f6f8fa; color: #1f2328; \x7d\n",
    .fixed "  h1 \x7b font-size: 1.4rem; \x7d\n",
    .fixed "  .panels \x7b display: grid; grid-template-columns: 1fr 1fr; gap: 1.5rem; \x7d\n",
    .fixed "  pre \x7b background: #282c34; color: #abb2bf; padding: 1rem;",
    .fixed " border-radius: 6px; overflow: auto; line-height: 1.45; \x7d\n",
    .fixed "  pre.output \x7b background: #fff; color: #1f2328; border: 1px solid",
    .fixed " #d0d7de; white-space: pre-wrap; \x7d\n",
    .fixed "  table \x7b border-collapse: collapse; margin-top: 1rem; \x7d\n",
    .fixed "  td, th \x7b border: 1px solid #d0d7de; padding: 0.3rem 0.7rem;",
    .fixed " text-align: left; \x7d\n",
    .fixed "  .token.comment \x7b color: #7f848e; font-style: italic; \x7d\n",
    .fixed "  .token.string \x7b color: #98c379; \x7d\n",
    .fixed "  .token.keyword \x7b color: #c678dd; \x7d\n",
    .fixed "  .token.number \x7b color: #d19a66; \x7d\n",
    .fixed "  .token.function \x7b color: #61afef; \x7d\n",
    .fixed "  .token.macro \x7b color: #e06c75; \x7d\n",
    .fixed "  .token.operator \x7b color: #56b6c2; \x7d\n",
    .fixed "  .token.punctuation \x7b color: #abb2bf; \x7d\n",
    .fixed "</style>\n",
    .fixed "</head>\n",
    .fixed "<body>\n",
    .fixed "<h1>",
    .hole .title,
    .fixed "</h1>\n",
    .fixed "<p>Source: <code>",
    .hole .sourceName,
    .fixed "</code></p>\n",
    .fixed "<div class=\"panels\">\n",
    .fixed "  <section>\n",
    .fixed "    <h2>Source</h2>\n",
    .fixed "    <pre class=\"language-",
    .hole .language,
    .fixed "\"><code>",
    .hole .sourceMarkup,
    .fixed "</code></pre>\n",
    .fixed "  </section>\n",
    .fixed "  <section>\n",
    .fixed "    <h2>Analysis</h2>\n",
    .fixed "    <pre class=\"output\">",
    .hole .outputMarkup,
    .fixed "</pre>\n",
    .fixed "    "]

def table : List (Segment Cell) :=
  [
    .fixed "\n",
    .fixed "    <table>\n",
    .fixed "      <tr><th>Loops</th><td>",
    .hole .loopCount,
    .fixed "</td></tr>\n",
    .fixed "      <tr><th>Nesting depth</th><td>",
    .hole .loopDepth,
    .fixed "</td></tr>\n",
    .fixed "      <tr><th>Recursion</th><td>",
    .hole .recursion,
    .fixed "</td></tr>\n",
    .fixed "      <tr><th>Binary search</th><td>",
    .hole .binarySearch,
    .fixed "</td></tr>\n",
    .fixed "      <tr><th>Linear search</th><td>",
    .hole .linearSearch,
    .fixed "</td></tr>\n",
    .fixed "    </table>\n",
    .fixed "    "]

def closing : List (Segment Hole) :=
  [
    .fixed "\n",
    .fixed "  </section>\n",
    .fixed "</div>\n",
    .fixed "</body>\n",
    .fixed "</html>"]

structure View where
  title : Text
  sourceName : Text
  language : Text
  sourceMarkup : Text
  outputMarkup : Text
  signals : Option Signals

namespace View

def fill (view : View) : Hole → Text
  | .title => Markup.escapeValue view.title
  | .sourceName => Markup.escapeValue view.sourceName
  | .language => Markup.escapeValue view.language
  | .sourceMarkup => view.sourceMarkup
  | .outputMarkup => view.outputMarkup

def cell (signals : Signals) : Cell → Text
  | .loopCount => Text.decimal signals.loopCount
  | .loopDepth => Text.decimal signals.loopDepth
  | .recursion =>
    match signals.recursion with
    | some recursion =>
      Markup.escapeValue recursion.functionName ++ " (".toList ++
        Text.decimal recursion.callCount ++ " calls)".toList
    | none => ['-']
  | .binarySearch => Analysis.yesNo signals.isBinarySearch
  | .linearSearch => Analysis.yesNo signals.isLinearSearch

def page (view : View) : Text :=
  opening.flatMap (Segment.fill view.fill) ++
    (match view.signals with
      | some signals => table.flatMap (Segment.fill (cell signals))
      | none => []) ++
    closing.flatMap (Segment.fill view.fill)

def ofPresenter (title sourceName : Text) (presenter : Presenter) : View :=
  { title, sourceName
    language := presenter.language
    sourceMarkup := presenter.sourceMarkup
    outputMarkup := presenter.outputMarkup
    signals := presenter.analysis.bind Analysis.signals? }

end View

-- Renders a presenter: the presenter afterwards, which has an analysis, and its page.
def render (title sourceName : Text) (presenter : Presenter) : Presenter × Text :=
  let prepared := presenter.prepare
  (prepared, (View.ofPresenter title sourceName prepared).page)

end OrderOfGrowth.Report
