import OrderOfGrowth.Format

/-!
Command lines: what can be asked of the program, and why a list of arguments asks for nothing.
-/

set_option autoImplicit false

namespace OrderOfGrowth

inductive Command where
  | analyze (path : Option Text)
  | sample
  | report (path : Option Text) (output : Text) (title : Option Text)
  | highlight (path : Option Text)
  | config (default : Bool)
  deriving DecidableEq, Repr

structure CommandLine where
  format : Option Format
  config : Option Text
  verbose : Bool
  noColor : Bool
  command : Command
  deriving DecidableEq, Repr

namespace CommandLine

inductive Rejection where
  | unknownArgument
  | invalidValue
  | invalidSubcommand
  | argumentConflict
  | tooManyValues
  | missingSubcommand
  | nothingGiven
  | helpWanted
  | versionWanted
  deriving DecidableEq, Repr

def defaultOutput : Text :=
  "bigo-report.html".toList

end CommandLine

end OrderOfGrowth
