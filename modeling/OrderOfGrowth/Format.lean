import OrderOfGrowth.Analysis
import OrderOfGrowth.Json.Printer
import OrderOfGrowth.Json.Signals

/-!
Analyses written out: as text, with or without terminal colours, as a JSON document, or as Markdown.
What is written ends with a line end in every format.
-/

set_option autoImplicit false

namespace OrderOfGrowth

inductive Format where
  | text
  | json
  | markdown
  deriving DecidableEq, Repr

namespace Format

def name : Format → Text
  | .text => "text".toList
  | .json => "json".toList
  | .markdown => "markdown".toList

def ofName? (s : Text) : Option Format :=
  [Format.text, .json, .markdown].find? (·.name == s)

-- The lower case form of a character as far as it is an ASCII letter: the capital letters, and
-- the Kelvin sign, whose lower case is a `k`. Of all other characters none has a lower case of
-- one ASCII letter.
def lowerAscii (c : Char) : Char :=
  if c = '\u212a' then 'k' else c.toLower

def ofAnyName? (s : Text) : Option Format :=
  let lower := s.map lowerAscii
  if lower = "text".toList ∨ lower = "txt".toList then some .text
  else if lower = "json".toList then some .json
  else if lower = "markdown".toList ∨ lower = "md".toList then some .markdown
  else none

def unknownMessage (s : Text) : Text :=
  "Unknown format: ".toList ++ s ++ ". Use 'text', 'json', or 'md'".toList

end Format

inductive Ink where
  | verdict
  | heading
  deriving DecidableEq, Repr

namespace Ink

-- The sequence that turns a style on: bold, and green for verdicts.
def onText : Ink → Text
  | .verdict => "\x1b[1;32m".toList
  | .heading => "\x1b[1m".toList

def offText : Text :=
  "\x1b[0m".toList

-- The style of a line: verdicts first, then lines that open a section.
def ofLine? (line : Line) : Option Ink :=
  if Text.occurs "Time Complexity".toList line.text || line.text.head? == some '→' then
    some .verdict
  else if line.opensSection then some .heading
  else none

def paint (line : Line) : Text :=
  match ofLine? line with
  | some ink => ink.onText ++ line.text ++ offText
  | none => line.text

end Ink

namespace Analysis

def writeLine (colored : Bool) (line : Line) : Text :=
  (if line.opensSection then ['\n'] else []) ++
    (if colored then Ink.paint line else line.text) ++ ['\n']

def writeText (colored : Bool) (analysis : Analysis) : Text :=
  match analysis.lines? with
  | none => blankMessage ++ ['\n']
  | some lines => lines.flatMap (writeLine colored)

def lineJson (line : Line) : Json :=
  .object [("text".toList, .string line.text), ("section_break".toList, .bool line.opensSection)]

def toJson : Analysis → Json
  | .blank => .object [("message".toList, .string blankMessage)]
  | .narrated signals =>
    let lines := Narration.ofSignals signals
    .object [("signals".toList, Json.ofSignals signals),
      ("narration".toList, .array (lines.map lineJson)),
      ("text".toList, .string (Narration.toText lines))]

def writeJson (analysis : Analysis) : Text :=
  analysis.toJson.pretty ++ ['\n']

def yesNo (b : Bool) : Text :=
  if b then "Yes".toList else "No".toList

def tableRow (label value : Text) : Text :=
  "| ".toList ++ label ++ " | ".toList ++ value ++ " |\n".toList

def recursionCell : Option Scan.Recursion → Text
  | some recursion =>
    "`".toList ++ recursion.functionName ++ "` (".toList ++ Text.decimal recursion.callCount ++
      " calls)".toList
  | none => "-".toList

def signalTable (signals : Signals) : Text :=
  tableRow "Signal".toList "Value".toList ++
    tableRow "---".toList "---".toList ++
    tableRow "Loops".toList (Text.decimal signals.loopCount) ++
    tableRow "Nesting Depth".toList (Text.decimal signals.loopDepth) ++
    tableRow "Recursion".toList (recursionCell signals.recursion) ++
    tableRow "Binary Search".toList (yesNo signals.isBinarySearch) ++
    tableRow "Linear Search".toList (yesNo signals.isLinearSearch)

def writeMarkdown (analysis : Analysis) : Text :=
  "# Complexity Analysis\n\n".toList ++
    match analysis with
    | .blank => "_".toList ++ blankMessage ++ "_\n".toList
    | .narrated signals =>
      signalTable signals ++ "\n## Narration\n\n```text\n".toList ++
        Narration.toText (Narration.ofSignals signals) ++ "\n```\n".toList

-- An analysis in a format. Colours are for the text format alone.
def write (format : Format) (colored : Bool) (analysis : Analysis) : Text :=
  match format with
  | .text => writeText colored analysis
  | .json => writeJson analysis
  | .markdown => writeMarkdown analysis

end Analysis

end OrderOfGrowth
