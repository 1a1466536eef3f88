import OrderOfGrowth.Settings.Basic
import OrderOfGrowth.Text.Numeral

/-!
Settings as a TOML document. A string is written in the plainest form that can hold it: on one line
without escapes if possible, with either quote, then on several lines without escapes, and with
escapes only if nothing else will do.
-/

set_option autoImplicit false

namespace OrderOfGrowth.Toml

inductive Form where
  | basic
  | literal
  | basicLines
  | literalLines
  deriving DecidableEq, Repr

def isEscapedControl (c : Char) : Bool :=
  Text.isControl c && c != '\n'

def lengthenRun (c : Char) (run : Nat × Nat) (d : Char) : Nat × Nat :=
  if d = c then (run.1 + 1, max run.2 (run.1 + 1)) else (0, run.2)

def longestRun (c : Char) (s : Text) : Nat :=
  (s.foldl (lengthenRun c) (0, 0)).2

def formOf (s : Text) : Form :=
  let controls := s.any isEscapedControl
  let linefeed := s.contains '\n'
  if !controls && !linefeed && !s.contains '\\' && !s.contains '"' then .basic
  else if !controls && !linefeed && !s.contains '\'' then .literal
  else if !controls && !s.contains '\\' && longestRun '"' s ≤ 2 then .basicLines
  else if !controls && longestRun '\'' s ≤ 2 then .literalLines
  else if linefeed then .basicLines
  else .basic

-- A character other than a quote in a basic string. On several lines the line feed stands for
-- itself.
def escapeChar (lines : Bool) (c : Char) : Text :=
  if c = '\n' then if lines then ['\n'] else "\\n".toList
  else if c = '\x08' then "\\b".toList
  else if c = '\t' then "\\t".toList
  else if c = '\x0c' then "\\f".toList
  else if c = '\r' then "\\r".toList
  else if c = '\\' then "\\\\".toList
  else if Text.isControl c then
    "\\u".toList ++ Text.padLeft '0' 4 ((Nat.toDigits 16 c.toNat).map Char.toUpper)
  else [c]

-- The inside of a basic string. On one line each quote is escaped, on several lines each third
-- one of a run; `run` is how many of a run have been written since the last escape.
def escape (lines : Bool) (run : Nat) : Text → Text
  | [] => []
  | c :: s =>
    if c = '"' then
      if lines && run < 2 then '"' :: escape lines (run + 1) s
      else "\\\"".toList ++ escape lines 0 s
    else escapeChar lines c ++ escape lines 0 s

def leadIn (s : Text) : Text :=
  if s.contains '\n' then ['\n'] else []

def writeString (s : Text) : Text :=
  match formOf s with
  | .basic => "\"".toList ++ escape false 0 s ++ "\"".toList
  | .literal => "'".toList ++ s ++ "'".toList
  | .basicLines => "\"\"\"".toList ++ leadIn s ++ escape true 0 s ++ "\"\"\"".toList
  | .literalLines => "'''".toList ++ leadIn s ++ s ++ "'''".toList

def writeSwitch (b : Bool) : Text :=
  if b then "true".toList else "false".toList

def writeLine (name value : Text) : Text :=
  name ++ " = ".toList ++ value ++ ['\n']

def write (settings : Settings) : Text :=
  "[output]\n".toList ++
    writeLine "format".toList (writeString settings.output.format.name) ++
    writeLine "color".toList (writeSwitch settings.output.color) ++
    "\n[highlight]\n".toList ++
    writeLine "language".toList (writeString settings.highlight.language) ++
    writeLine "enabled".toList (writeSwitch settings.highlight.enabled) ++
    "\n[report]\n".toList ++
    writeLine "title".toList (writeString settings.report.title)

-- The document that is shipped: the defaults, with comments.
def shipped : Text :=
  Text.joinWith ['\n'] (List.map String.toList
    ["# bigo configuration",
    "#",
    "# Values here are overridden by BIGO_-prefixed environment variables,",
    "# e.g. BIGO_OUTPUT__FORMAT=json.",
    "",
    "[output]",
    "# text, json or markdown",
    "format = \"text\"",
    "color = true",
    "",
    "[highlight]",
    "# Language identifier handed to the highlighter.",
    "language = \"c\"",
    "# Set to false to escape the source without token styling.",
    "enabled = true",
    "",
    "[report]",
    "title = \"Time Complexity Analysis\"",
    ""])

end OrderOfGrowth.Toml
