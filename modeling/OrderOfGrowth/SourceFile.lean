import OrderOfGrowth.Analysis
import OrderOfGrowth.Error

/-!
Sources as bytes, with the path that they were read from, if there was one. The text of a source is
its bytes decoded; bytes that are not well formed do not stop anything.
-/

set_option autoImplicit false

namespace OrderOfGrowth

structure SourceFile where
  path : Option Text
  bytes : List UInt8
  deriving DecidableEq, Repr

namespace SourceFile

open Files (Tree Place)

-- The source of a file. What is not there is told from what cannot be read.
def load (tree : Tree) (working : Place) (path : Text) : Except Error SourceFile :=
  if !tree.isThere working path then .error (.sourceMissing path)
  else
    match tree.read working path with
    | .ok bytes => .ok ⟨some path, bytes⟩
    | .error refusal => .error (.refused refusal)

def ofBytes (bytes : List UInt8) : SourceFile :=
  ⟨none, bytes⟩

def ofText (s : Text) : SourceFile :=
  ofBytes (Text.encode s)

def loadOrInput (tree : Tree) (working : Place) (input : List UInt8) (path : Option Text) :
    Except Error SourceFile :=
  match path with
  | none => .ok (ofBytes input)
  | some path => if Files.Path.isDash path then .ok (ofBytes input) else load tree working path

def text (source : SourceFile) : Text :=
  Text.decode source.bytes

def totalLines (source : SourceFile) : Nat :=
  (Text.lines source.text).length

def displayName (source : SourceFile) : Text :=
  source.path.getD "<stdin>".toList

end SourceFile

end OrderOfGrowth
