import OrderOfGrowth.Settings.Basic
import OrderOfGrowth.Settings.Layer

/-!
Settings from merged layers. Only now are values looked at for what they are: one that a newer
layer has replaced is never complained about. A section is a table, or a list that gives its
settings in the order in which they are declared; what a section does not give keeps its default.
-/

set_option autoImplicit false

namespace OrderOfGrowth.Settings

inductive Wanted where
  | switch
  | text
  | format
  | formatName
  | nothing
  | outputSection
  | highlightSection
  | reportSection
  deriving DecidableEq, Repr

def Wanted.words : Wanted → Text
  | .switch => "a boolean".toList
  | .text => "a string".toList
  | .format => "enum OutputFormat".toList
  | .formatName => "enum".toList
  | .nothing => "unit".toList
  | .outputSection => "struct OutputConfig".toList
  | .highlightSection => "struct HighlightConfig".toList
  | .reportSection => "struct ReportConfig".toList

inductive Complaint where
  | wrongType (found : Layered) (wanted : Wanted)
  | unknownFormat (name : Text)

-- A setting that cannot be accepted: what is wrong with it, where it is, and where it is from.
structure Unacceptable where
  complaint : Complaint
  path : List Text
  source : Source

namespace Unacceptable

def foundText : Layered → Text
  | .leaf _ value => value.foundText
  | .table _ _ => "map".toList

def complaintText : Complaint → Text
  | .wrongType found wanted =>
    "invalid type: found ".toList ++ foundText found ++ ", expected ".toList ++ wanted.words
  | .unknownFormat name =>
    "unknown variant: found `".toList ++ name ++
      "`, expected `one of `text`, `json`, `markdown``".toList

def keyText (source : Source) (path : List Text) : Text :=
  match source with
  | .environment => Text.joinWith ['.'] (path.map (·.map Char.toUpper))
  | _ => Text.joinWith ['.'] ("default".toList :: path)

def sourceText : Source → Text
  | .defaults => "defaults".toList
  | .file shown => shown ++ " TOML file".toList
  | .environment => "`BIGO_` environment variable(s)".toList

def message (u : Unacceptable) : Text :=
  complaintText u.complaint ++ " for key ".toList ++ Text.quoted (keyText u.source u.path) ++
    " in ".toList ++ sourceText u.source

end Unacceptable

abbrev Read (α : Type) := Except Unacceptable α

def refuse {α : Type} (wanted : Wanted) (path : List Text) (found : Layered) : Read α :=
  .error ⟨.wrongType found wanted, path, found.source⟩

def readSwitch (path : List Text) : Layered → Read Bool
  | .leaf _ (.flag b) => .ok b
  | found => refuse .switch path found

def readText (path : List Text) : Layered → Read Text
  | .leaf _ (.text s) => .ok s
  | .leaf _ (.character c) => .ok [c]
  | found => refuse .text path found

def readFormatName (path : List Text) (source : Source) (name : Text) : Read Format :=
  match Format.ofName? name with
  | some format => .ok format
  | none => .error ⟨.unknownFormat name, path, source⟩

-- A format: its name. A table of one member is taken for a name with something attached, which no
-- format has.
def readFormat (path : List Text) : Layered → Read Format
  | .leaf source (.text s) => readFormatName path source s
  | .table source [(name, value)] => do
    let _ ← readFormatName path source name
    refuse .nothing (path ++ [name]) value
  | .table source members => refuse .formatName path (.table source members)
  | found => refuse .format path found

def readMember {α : Type} (read : List Text → Layered → Read α) (path : List Text) (name : Text)
    (default : α) (members : List (Text × Layered)) : Read α :=
  match members.lookup name with
  | some value => read (path ++ [name]) value
  | none => .ok default

def readItem {α : Type} (read : List Text → Layered → Read α) (path : List Text) (index : Nat)
    (default : α) (source : Source) (items : List Value) : Read α :=
  match items[index]? with
  | some value => read (path ++ [Text.decimal index]) (Layered.ofValue source value)
  | none => .ok default

-- A section: a table of settings, or a list of them.
def readSection {α : Type} (wanted : Wanted) (ofMembers : List Text → List (Text × Layered) → Read α)
    (ofItems : List Text → Source → List Value → Read α) (path : List Text) : Layered → Read α
  | .table _ members => ofMembers path members
  | .leaf source (.list items) => ofItems path source items
  | found => refuse wanted path found

-- The members of a table are read in the order of their names.
def readOutput : List Text → Layered → Read OutputSettings :=
  readSection .outputSection
    (fun path members => do
      let color ← readMember readSwitch path "color".toList true members
      let format ← readMember readFormat path "format".toList .text members
      pure { format, color })
    (fun path source items => do
      let format ← readItem readFormat path 0 .text source items
      let color ← readItem readSwitch path 1 true source items
      pure { format, color })

def readHighlight : List Text → Layered → Read HighlightSettings :=
  readSection .highlightSection
    (fun path members => do
      let enabled ← readMember readSwitch path "enabled".toList true members
      let language ← readMember readText path "language".toList ['c'] members
      pure { language, enabled })
    (fun path source items => do
      let language ← readItem readText path 0 ['c'] source items
      let enabled ← readItem readSwitch path 1 true source items
      pure { language, enabled })

def defaultTitle : Text :=
  "Time Complexity Analysis".toList

def readReport : List Text → Layered → Read ReportSettings :=
  readSection .reportSection
    (fun path members => do
      let title ← readMember readText path "title".toList defaultTitle members
      pure { title })
    (fun path source items => do
      let title ← readItem readText path 0 defaultTitle source items
      pure { title })

-- All settings from merged layers. The sections are read in the order of their names.
def read (merged : Layered) : Read Settings :=
  let members :=
    match merged with
    | .table _ members => members
    | .leaf _ _ => []
  do
    let highlight ← readMember readHighlight [] "highlight".toList {} members
    let output ← readMember readOutput [] "output".toList {} members
    let report ← readMember readReport [] "report".toList {} members
    pure { output, highlight, report }

end OrderOfGrowth.Settings
