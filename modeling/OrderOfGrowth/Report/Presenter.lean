import OrderOfGrowth.Analysis
import OrderOfGrowth.Markup.Highlight

/-!
A presenter holds a source and the analysis that is shown beside it, each with its markup. The two
need not agree: a new source leaves the shown analysis alone until the next one is asked for.
-/

set_option autoImplicit false

namespace OrderOfGrowth

open Markup (Highlighting)

-- A source with its markup, and the shown analysis with the markup of its text, which is empty as
-- long as there is no analysis.
structure Presenter where
  highlighting : Highlighting
  language : Text
  source : Text
  sourceMarkup : Text
  analysis : Option Analysis
  outputMarkup : Text

namespace Presenter

-- The source that is shown when none is given: a bubble sort.
def sampleSource : Text :=
  Text.joinWith ['\n'] (List.map String.toList
    ["void bubbleSort(int arr[], int n) \x7b",
    "  for (int i = 0; i < n - 1; i++) \x7b",
    "    for (int j = 0; j < n - i - 1; j++) \x7b",
    "      if (arr[j] > arr[j + 1]) \x7b",
    "        // Swap arr[j] and arr[j+1]",
    "        int temp = arr[j];",
    "        arr[j] = arr[j + 1];",
    "        arr[j + 1] = temp;",
    "      \x7d",
    "    \x7d",
    "  \x7d",
    "\x7d"])

-- Nothing is highlighted yet, not even the empty source.
def empty (highlighting : Highlighting) (language : Text) : Presenter :=
  ⟨highlighting, language, [], [], none, []⟩

def markup (presenter : Presenter) (s : Text) : Text :=
  presenter.highlighting presenter.language s

-- Shows another source. The shown analysis stays.
def setSource (presenter : Presenter) (source : Text) : Presenter :=
  { presenter with
    source := source
    sourceMarkup := presenter.markup source }

def withSample (highlighting : Highlighting) (language : Text) : Presenter :=
  (empty highlighting language).setSource sampleSource

def analyze (presenter : Presenter) : Presenter :=
  let analysis := Analysis.ofSource presenter.source
  { presenter with
    analysis := some analysis
    outputMarkup := presenter.markup analysis.toText }

def prepare (presenter : Presenter) : Presenter :=
  match presenter.analysis with
  | some _ => presenter
  | none => presenter.analyze

end Presenter

end OrderOfGrowth
