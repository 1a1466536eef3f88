import OrderOfGrowth.CommandLine.Basic
import OrderOfGrowth.Settings.Loading

/-!
What a command line looks at and what it changes, known before it runs. Whoever shows a run no more
of the system than this shows it enough.
-/

set_option autoImplicit false

namespace OrderOfGrowth

open Files (Place)

namespace Command

def sourcePath? : Command → Option Text
  | .analyze path => path
  | .report path _ _ => path
  | .highlight path => path
  | .sample => none
  | .config _ => none

def takesSource : Command → Bool
  | .analyze _ => true
  | .report _ _ _ => true
  | .highlight _ => true
  | .sample => false
  | .config _ => false

def readsInput (command : Command) : Bool :=
  command.takesSource && command.sourcePath?.all Files.Path.isDash

def outputPath? : Command → Option Text
  | .report _ output _ => some output
  | _ => none

end Command

namespace CommandLine

def settingsPaths (line : CommandLine) (working : Place) : List Text :=
  match line.config with
  | some path => [path]
  | none =>
    (Settings.ancestors working).flatMap fun place => Settings.fileNames (Files.Path.ofPlace place)

def paths (line : CommandLine) (working : Place) : List Text :=
  line.settingsPaths working ++ line.command.sourcePath?.toList ++ line.command.outputPath?.toList

end CommandLine

end OrderOfGrowth
