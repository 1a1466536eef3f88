import OrderOfGrowth.Files.Path
import OrderOfGrowth.Text.Utf8

/-!
Trees of files, and the ways to look at them and change them. A path is followed part by part: each
part on the way has to be a directory, and so has the last one if the path ends with a slash.
-/

set_option autoImplicit false

namespace OrderOfGrowth.Files

inductive Refusal where
  | absent
  | notDirectory
  | isDirectory
  | nameTooLong
  deriving DecidableEq, Repr

def Refusal.message : Refusal → Text
  | .absent => "No such file or directory (os error 2)".toList
  | .notDirectory => "Not a directory (os error 20)".toList
  | .isDirectory => "Is a directory (os error 21)".toList
  | .nameTooLong => "File name too long (os error 36)".toList

inductive Tree where
  | file (bytes : List UInt8)
  | directory (entries : List (Text × Tree))

namespace Tree

def entries? : Tree → Option (List (Text × Tree))
  | .file _ => none
  | .directory entries => some entries

def at? (tree : Tree) : Place → Option Tree
  | [] => some tree
  | name :: rest =>
    match tree with
    | .file _ => none
    | .directory entries =>
      match entries.lookup name with
      | some child => at? child rest
      | none => none

def isDirectoryAt (tree : Tree) (place : Place) : Bool :=
  ((tree.at? place).bind entries?).isSome

def follow (tree : Tree) (place : Place) (part : Text) : Except Refusal Place :=
  if !tree.isDirectoryAt place then .error .notDirectory
  else if Path.stays part then .ok place
  else if part = Path.up then .ok place.dropLast
  else if 255 < (Text.encode part).length then .error .nameTooLong
  else if (tree.at? (place ++ [part])).isSome then .ok (place ++ [part])
  else .error .absent

def start (working : Place) (path : Text) : Place :=
  if Path.isAbsolute path then [] else working

-- The place that a path leads to, from a working directory. The empty path leads nowhere.
def resolve (tree : Tree) (working : Place) (path : Text) : Except Refusal Place :=
  if path = [] then .error .absent
  else if 4096 ≤ (Text.encode path).length then .error .nameTooLong
  else (Text.splitOn '/' path).foldlM tree.follow (start working path)

def isThere (tree : Tree) (working : Place) (path : Text) : Bool :=
  (tree.resolve working path).isOk

def read (tree : Tree) (working : Place) (path : Text) : Except Refusal (List UInt8) :=
  match tree.resolve working path with
  | .error refusal => .error refusal
  | .ok place =>
    match tree.at? place with
    | some (.file bytes) => .ok bytes
    | some (.directory _) => .error .isDirectory
    | none => .error .absent

def isFile (tree : Tree) (working : Place) (path : Text) : Bool :=
  (tree.read working path).isOk

def updateEntry (name : Text) (change : Option Tree → Tree) :
    List (Text × Tree) → List (Text × Tree)
  | [] => [(name, change none)]
  | (other, child) :: entries =>
    if other = name then (other, change (some child)) :: entries
    else (other, child) :: updateEntry name change entries

-- The tree with a file of these bytes at a place. Directories that are missing are made.
def put (bytes : List UInt8) : Place → Tree → Tree
  | [], _ => .file bytes
  | name :: rest, tree =>
    .directory (updateEntry name (fun child => put bytes rest (child.getD (.directory [])))
      (tree.entries?.getD []))

def makeDirectory : Place → Tree → Tree
  | [], tree => tree
  | name :: rest, tree =>
    .directory (updateEntry name (fun child => makeDirectory rest (child.getD (.directory [])))
      (tree.entries?.getD []))

inductive Finding where
  | file (bytes : List UInt8)
  | directory
  deriving DecidableEq, Repr

def record (tree : Tree) (place : Place) : Finding → Tree
  | .file bytes => tree.put bytes place
  | .directory => tree.makeDirectory place

-- The place of a file to be written, if it can be: its directory has to be there, and nothing but
-- a file may have its name.
def target (tree : Tree) (working : Place) (path : Text) : Except Refusal Place :=
  if path = [] then .error .absent
  else if 4096 ≤ (Text.encode path).length then .error .nameTooLong
  else
    let parts := Text.splitOn '/' path
    match parts.reverse.dropWhile (· == []) with
    | [] => .error .isDirectory
    | last :: before => do
      let parent ← before.reverse.foldlM tree.follow (start working path)
      if !tree.isDirectoryAt parent then .error .notDirectory
      else if Path.stays last || last == Path.up || parts.getLast? == some [] then
        .error .isDirectory
      else if 255 < (Text.encode last).length then .error .nameTooLong
      else
        match tree.at? (parent ++ [last]) with
        | some (.directory _) => .error .isDirectory
        | _ => .ok (parent ++ [last])

def write (tree : Tree) (working : Place) (path : Text) (bytes : List UInt8) :
    Except Refusal Tree :=
  match tree.target working path with
  | .ok place => .ok (tree.put bytes place)
  | .error refusal => .error refusal

end Tree

end OrderOfGrowth.Files
