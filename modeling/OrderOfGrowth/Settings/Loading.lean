import OrderOfGrowth.Files.Tree
import OrderOfGrowth.Settings.Environment
import OrderOfGrowth.Settings.Reading
import OrderOfGrowth.Toml.Reader

/-!
Loading settings: from one file that has to be there, or from the two files of a directory that
need not be. The environment goes over all files, and the file in the hidden directory over the
other one. A relative name that is not found is sought in the directories above the working
directory too.
-/

set_option autoImplicit false

namespace OrderOfGrowth.Settings

open Files (Tree Place)

inductive FileFault where
  | unreadable (refusal : Files.Refusal)
  | notUtf8
  | notToml
  deriving DecidableEq, Repr

-- The fault in words. What the system says is a line of its own.
def FileFault.message : FileFault → Text
  | .unreadable refusal => refusal.message ++ ['\n']
  | .notUtf8 => "stream did not contain valid UTF-8\n".toList
  | .notToml => "TOML parse error".toList

inductive LoadError where
  | missing (path : Text)
  | faulty (faults : List (FileFault × Text))
  | unacceptable (reason : Unacceptable)

-- The error in words. Of several faulty files the newest layer comes first.
def LoadError.message : LoadError → Text
  | .missing path => "config file not found: ".toList ++ path
  | .faulty faults =>
    Text.joinWith ['\n']
      (faults.reverse.map fun (fault, shown) =>
        fault.message ++ " in ".toList ++ Unacceptable.sourceText (.file shown))
  | .unacceptable reason => reason.message

def layerOfBytes (shown : Text) (bytes : List UInt8) : Except FileFault Layered :=
  match Text.decodeStrict? bytes with
  | none => .error .notUtf8
  | some s =>
    match Toml.parse? s with
    | none => .error .notToml
    | some members => .ok (Layered.ofValue (.file shown) (.table members))

def layerOfFile (tree : Tree) (working : Place) (path shown : Text) : Except FileFault Layered :=
  match tree.read working path with
  | .error refusal => .error (.unreadable refusal)
  | .ok bytes => layerOfBytes shown bytes

def defaultLayer : Layered :=
  Layered.ofValue .defaults
    (.table
      [("output".toList,
          .table [("format".toList, .text "text".toList), ("color".toList, .flag true)]),
        ("highlight".toList,
          .table [("language".toList, .text ['c']), ("enabled".toList, .flag true)]),
        ("report".toList, .table [("title".toList, .text defaultTitle)])])

-- All variables as one layer, the later ones over the earlier ones. They meet before they meet the
-- files: a variable for a whole section that a later one replaces takes nothing away from a file.
def environmentLayer (environment : List (Text × Text)) : Layered :=
  Layered.merge ((fromEnvironment environment).map (Layered.ofValue .environment))

-- The settings of files and the environment: faulty files first, and then what they say.
def combine (files : List (Text × Except FileFault Layered)) (environment : List (Text × Text)) :
    Except LoadError Settings :=
  let faults := files.filterMap fun (shown, layer) =>
    match layer with
    | .error fault => some (fault, shown)
    | .ok _ => none
  if faults ≠ [] then .error (.faulty faults)
  else
    let layers := files.filterMap fun (_, layer) => layer.toOption
    match read (Layered.override (environmentLayer environment) (Layered.merge (defaultLayer :: layers))) with
    | .ok settings => .ok settings
    | .error reason => .error (.unacceptable reason)

def fromFile (tree : Tree) (working : Place) (environment : List (Text × Text)) (path : Text) :
    Except LoadError Settings :=
  if tree.isThere working path then
    combine [(path, layerOfFile tree working path path)] environment
  else .error (.missing path)

-- The directories in which a relative name is sought: the working directory and those above it,
-- nearest first.
def ancestors : Place → List Place
  | [] => [[]]
  | name :: rest => (ancestors rest).map (name :: ·) ++ [[]]

def findUpward (tree : Tree) (working : Place) (path : Text) : Option Place :=
  if Files.Path.isAbsolute path then if tree.isFile [] path then some [] else none
  else (ancestors working).find? fun place => tree.isFile place path

-- How a found file is shown: its way from the working directory.
def shownPath (working found : Place) (path : Text) : Text :=
  let parts := (if Files.Path.isAbsolute path then [] else found) ++ Files.Path.moves path
  Text.joinWith ['/'] (Files.Path.relative parts working)

def soughtLayer (tree : Tree) (working : Place) (path : Text) :
    Option (Text × Except FileFault Layered) :=
  (findUpward tree working path).map fun found =>
    let shown := shownPath working found path
    (shown, layerOfFile tree found path shown)

def fileNames (directory : Text) : List Text :=
  [Files.Path.join directory "bigo.toml".toList, Files.Path.join directory ".bigo/bigo.toml".toList]

def fromDirectory (tree : Tree) (working : Place) (environment : List (Text × Text))
    (directory : Text) : Except LoadError Settings :=
  combine ((fileNames directory).filterMap (soughtLayer tree working)) environment

end OrderOfGrowth.Settings
