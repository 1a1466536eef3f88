import OrderOfGrowth.Text.Pattern
import OrderOfGrowth.Text.WordChar

/-!
The recursion signal. The first text shaped like a function definition names a function; its name
followed by an opening parenthesis is a call, wherever it stands, and the definition counts too.
-/

set_option autoImplicit false

namespace OrderOfGrowth.Scan

structure Recursion where
  functionName : Text
  callCount : Nat
  deriving DecidableEq, Repr

def namePattern : Pattern :=
  .someRun Text.isNameChar

-- What follows the name in a definition: parameters up to the first closing parenthesis, and a
-- body that reaches as far as it can.
def bodyPattern : Pattern :=
  .sequence [.white, .one '(', .except ')', .one ')', .white, .one '{', .run fun _ => true,
    .one '}']

def definedName? (source : Text) : Option Text :=
  Text.firstSuffix? (namePattern.captured? bodyPattern) source

def callPattern (name : Text) : Pattern :=
  .sequence [.text name, .white, .one '(']

def calls (name source : Text) : List (Text.Found Unit) :=
  Text.findAll (fun _ s => ((callPattern name).rest? s).map ((), ·)) source

-- The recursion in a source: the first function defined, if it is called at least twice, the
-- definition included.
def recursion? (source : Text) : Option Recursion :=
  match definedName? source with
  | none => none
  | some name =>
    let count := (calls name source).length
    if 2 ≤ count then some ⟨name, count⟩ else none

end OrderOfGrowth.Scan
