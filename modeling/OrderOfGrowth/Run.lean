import OrderOfGrowth.CommandLine.Reader
import OrderOfGrowth.Report.Page
import OrderOfGrowth.Settings.Loading
import OrderOfGrowth.SourceFile
import OrderOfGrowth.Toml.Writer

/-!
A run of the program, step by step, in surroundings that it only looks at: where it works, the
environment, the standard input, and whether it prints to a terminal. What it has printed and the files
are changed as it goes.
-/

set_option autoImplicit false

namespace OrderOfGrowth

open Files (Tree Place)

structure Surroundings where
  working : Place
  environment : List (Text × Text)
  input : List UInt8
  terminal : Bool := false

structure World extends Surroundings where
  files : Tree

-- What a run leaves behind: its exit code, what it writes to the standard output, the error it
-- reports, and the files.
structure Outcome where
  exit : Nat
  output : Text
  error : Option Text
  files : Tree

namespace Run

structure Failure where
  context : Option Text
  error : Error

def Failure.message (failure : Failure) : Text :=
  let full := failure.error.fullMessage
  match failure.context with
  | some context => context ++ ": ".toList ++ full
  | none => full

-- What a run has done so far: what it has printed, and the files as they are now.
structure Effects where
  output : Text
  files : Tree

-- A step of a run. What has been done when a step fails stays done.
abbrev Action := EStateM Failure Effects

def print (text : Text) : Action Unit :=
  modify fun done => { done with output := done.output ++ text }

def settle {ε α : Type} (fail : ε → Failure) : Except ε α → Action α
  | .ok a => pure a
  | .error error => throw (fail error)

-- A variable that is a switch: it is off if it is zero, and on if it is anything else.
def switch? (environment : List (Text × Text)) (name : Text) : Option Bool :=
  (environment.lookup name).map (· != ['0'])

-- Whether styles are shown: colours can be forced, else they can be refused, and else it is for the
-- terminal to show them.
def showsColor (around : Surroundings) : Bool :=
  if switch? around.environment "CLICOLOR_FORCE".toList = some true then true
  else if (switch? around.environment "NO_COLOR".toList).isSome then false
  else (switch? around.environment "CLICOLOR".toList).getD true && around.terminal

def settingsOf (around : Surroundings) (files : Tree) (config : Option Text) :
    Except Settings.LoadError Settings :=
  match config with
  | some path => Settings.fromFile files around.working around.environment path
  | none => Settings.fromDirectory files around.working around.environment ['.']

def loadSettings (around : Surroundings) (config : Option Text) : Action Settings := do
  let done ← get
  settle (fun error => ⟨none, .settings error.message⟩) (settingsOf around done.files config)

def readingContext : Option Text → Text
  | some path => "reading ".toList ++ path
  | none => "reading stdin".toList

def readSource (around : Surroundings) (path : Option Text) : Action SourceFile := do
  let done ← get
  settle (fun error => ⟨some (readingContext path), error⟩)
    (SourceFile.loadOrInput done.files around.working around.input path)

-- Writes a file. If it cannot be written, the files stay as they are.
def save (around : Surroundings) (path : Text) (bytes : List UInt8) : Action Unit := do
  let done ← get
  let files ← settle (fun refusal => ⟨some ("writing report to ".toList ++ path), .refused refusal⟩)
    (done.files.write around.working path bytes)
  set { done with files }

def highlighter (settings : Settings) : Markup.Highlighter :=
  .ofSwitch settings.highlight.enabled

def analyze (around : Surroundings) (format : Format) (colored : Bool) (path : Option Text) :
    Action Unit := do
  let source ← readSource around path
  print ((Analysis.ofSource source.text).write format colored)

-- Analyses the sample. The text format shows its source first.
def sample (settings : Settings) (format : Format) (colored : Bool) : Action Unit := do
  let presenter := Presenter.withSample (highlighter settings).highlight settings.highlight.language
  if format = .text then print (presenter.source ++ "\n\n".toList)
  print ((Analysis.ofSource presenter.source).write format colored)

-- The page of a report on a source, shown by a presenter that has seen nothing else.
def pageOf (settings : Settings) (title : Option Text) (source : SourceFile) : Text :=
  let presenter :=
    (Presenter.empty (highlighter settings).highlight settings.highlight.language).setSource source.text
  (Report.render (title.getD settings.report.title) source.displayName presenter).2

def report (around : Surroundings) (settings : Settings) (path : Option Text) (output : Text)
    (title : Option Text) : Action Unit := do
  let source ← readSource around path
  save around output (Text.encode (pageOf settings title source))
  print ("Report written to ".toList ++ output ++ ['\n'])

def highlight (around : Surroundings) (settings : Settings) (path : Option Text) : Action Unit := do
  let source ← readSource around path
  print ((highlighter settings).highlight settings.highlight.language source.text ++ ['\n'])

def showSettings (settings : Settings) (default : Bool) : Action Unit :=
  print (if default then Toml.shipped else Toml.write settings)

def formatOf (line : CommandLine) (settings : Settings) : Format :=
  line.format.getD settings.output.format

def isColored (line : CommandLine) (settings : Settings) (around : Surroundings) : Bool :=
  settings.output.color && !line.noColor && showsColor around

-- Runs a command line. The settings are loaded first, whatever the command.
def perform (around : Surroundings) (line : CommandLine) : Action Unit := do
  let settings ← loadSettings around line.config
  let format := formatOf line settings
  let colored := isColored line settings around
  match line.command with
  | .analyze path => analyze around format colored path
  | .sample => sample settings format colored
  | .report path output title => report around settings path output title
  | .highlight path => highlight around settings path
  | .config default => showSettings settings default

def versionText : Text :=
  "bigo 0.1.0\n".toList

-- What comes of arguments that are no command line: help and the version are no errors.
def reject (world : World) : CommandLine.Rejection → Outcome
  | .helpWanted => ⟨0, [], none, world.files⟩
  | .versionWanted => ⟨0, versionText, none, world.files⟩
  | _ => ⟨2, [], none, world.files⟩

def ofArguments (world : World) (args : List Text) : Outcome :=
  match CommandLine.ofArguments args with
  | .error rejection => reject world rejection
  | .ok line =>
    match perform world.toSurroundings line ⟨[], world.files⟩ with
    | .ok _ done => ⟨0, done.output, none, done.files⟩
    | .error failure done =>
      ⟨1, done.output, some ("Error: ".toList ++ failure.message ++ ['\n']), done.files⟩

end Run

end OrderOfGrowth
