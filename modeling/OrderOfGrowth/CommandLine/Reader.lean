import OrderOfGrowth.CommandLine.Scope

/-!
Reading command lines. In front of the command stand the options of the program, behind it those of
the command; the two scopes do not mix. Behind a double dash an argument is a path whatever it looks
like.
-/

set_option autoImplicit false

namespace OrderOfGrowth.CommandLine

inductive ProgramOption where
  | format | config | verbose | noColor
  deriving DecidableEq, Repr

inductive CommandOption where
  | path | output | title | default
  deriving DecidableEq, Repr

def programScope : Scope ProgramOption where
  named name :=
    if name = "format".toList then some (.valued .format)
    else if name = "config".toList then some (.valued .config)
    else if name = "verbose".toList then some (.flag .verbose)
    else if name = "no-color".toList then some (.flag .noColor)
    else if name = "help".toList then some .help
    else if name = "version".toList then some .version
    else none
  lettered c :=
    if c = 'f' then some (.valued .format)
    else if c = 'c' then some (.valued .config)
    else if c = 'v' then some (.flag .verbose)
    else if c = 'h' then some .help
    else if c = 'V' then some .version
    else none
  accepts option value :=
    match option with
    | .format => (Format.ofName? value).isSome
    | .config => value ≠ []
    | _ => true

inductive CommandName where
  | analyze | sample | report | highlight | config
  deriving DecidableEq, Repr

namespace CommandName

-- The command of a word. Two commands have a short form.
def ofWord? (word : Text) : Option CommandName :=
  if word = "analyze".toList ∨ word = "a".toList then some .analyze
  else if word = "sample".toList then some .sample
  else if word = "report".toList then some .report
  else if word = "highlight".toList ∨ word = "hl".toList then some .highlight
  else if word = "config".toList then some .config
  else none

def takesPath : CommandName → Bool
  | .analyze => true
  | .report => true
  | .highlight => true
  | .sample => false
  | .config => false

def named (command : CommandName) (name : Text) : Option (Role CommandOption) :=
  if name = "help".toList then some .help
  else
    match command with
    | .report =>
      if name = "output".toList then some (.valued .output)
      else if name = "title".toList then some (.valued .title)
      else none
    | .config => if name = "default".toList then some (.flag .default) else none
    | _ => none

def lettered (command : CommandName) (c : Char) : Option (Role CommandOption) :=
  if c = 'h' then some .help
  else if command = .report ∧ c = 'o' then some (.valued .output)
  else none

-- The scope of a command. Paths may not be empty; a title may.
def scope (command : CommandName) : Scope CommandOption where
  named := command.named
  lettered := command.lettered
  accepts option value :=
    match option with
    | .path => value ≠ []
    | .output => value ≠ []
    | _ => true

def toCommand (command : CommandName) (given : Given CommandOption) : Command :=
  match command with
  | .analyze => .analyze (given.value? .path)
  | .sample => .sample
  | .report =>
    .report (given.value? .path) ((given.value? .output).getD defaultOutput) (given.value? .title)
  | .highlight => .highlight (given.value? .path)
  | .config => .config (given.has .default)

def takePath (command : CommandName) (given : Given CommandOption) (arg : Text) :
    Except Rejection (Given CommandOption) :=
  if command.takesPath && !given.has .path then do
    let given ← command.scope.settle given
    pure { given with pending := some (.path, some arg) }
  else .error .unknownArgument

def readPaths (command : CommandName) (given : Given CommandOption) :
    List Text → Except Rejection (Given CommandOption)
  | [] => command.scope.settle given
  | arg :: args =>
    match command.takePath given arg with
    | .ok given => readPaths command given args
    | .error rejection => .error rejection

def readArguments (command : CommandName) (given : Given CommandOption) :
    List Text → Except Rejection (Given CommandOption)
  | [] => command.scope.settle given
  | arg :: args =>
    if arg = "--".toList then command.readPaths given args
    else
      match command.scope.takeOptions? given arg with
      | some (.ok given) => readArguments command given args
      | some (.error rejection) => .error rejection
      | none =>
        if given.awaits then readArguments command (given.supply arg) args
        else
          match command.takePath given arg with
          | .ok given => readArguments command given args
          | .error rejection => .error rejection

end CommandName

def helpWord : Text :=
  "help".toList

def isCommandWord (word : Text) : Bool :=
  word == helpWord || (CommandName.ofWord? word).isSome

-- What comes of asking for help: help, if at most one word follows and it is a command.
def readHelp : List Text → Rejection
  | [] => .helpWanted
  | [word] => if isCommandWord word then .helpWanted else .invalidSubcommand
  | _ => .invalidSubcommand

def withoutCommand (given : Given ProgramOption) : Rejection :=
  match programScope.settle given with
  | .error rejection => rejection
  | .ok given => if given.settled.isEmpty then .nothingGiven else .missingSubcommand

def withoutOptions (given : Given ProgramOption) : List Text → Rejection
  | [] => withoutCommand given
  | word :: _ => if isCommandWord word then .unknownArgument else .invalidSubcommand

def assemble (given : Given ProgramOption) (command : Command) : CommandLine :=
  { format := (given.value? .format).bind Format.ofName?
    config := given.value? .config
    verbose := given.has .verbose
    noColor := given.has .noColor
    command }

-- Reads a command and the arguments behind it. What is pending in front of the command is settled
-- last.
def readCommand (given : Given ProgramOption) (name : CommandName) (args : List Text) :
    Except Rejection CommandLine := do
  let own ← name.readArguments .none args
  let given ← programScope.settle given
  pure (assemble given (name.toCommand own))

def readProgram (given : Given ProgramOption) : List Text → Except Rejection CommandLine
  | [] => .error (withoutCommand given)
  | arg :: args =>
    if !given.awaits && arg == helpWord then .error (readHelp args)
    else
      match if given.awaits then none else CommandName.ofWord? arg with
      | some name => readCommand given name args
      | none =>
        if arg = "--".toList then .error (withoutOptions given args)
        else
          match programScope.takeOptions? given arg with
          | some (.ok given) => readProgram given args
          | some (.error rejection) => .error rejection
          | none =>
            if given.awaits then readProgram (given.supply arg) args
            else .error .invalidSubcommand

def ofArguments (args : List Text) : Except Rejection CommandLine :=
  readProgram .none args

end OrderOfGrowth.CommandLine
