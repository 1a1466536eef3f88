import OrderOfGrowth.Text.Basic

/-!
Paths as texts. A path is read as its parts between slashes; empty parts and single dots stay where
they are, and two dots go up.
-/

set_option autoImplicit false

namespace OrderOfGrowth.Files

-- A place in a tree: the names on the way down from the root.
abbrev Place := List Text

namespace Path

def isAbsolute (path : Text) : Bool :=
  path.head? == some '/'

def stays (part : Text) : Bool :=
  part == [] || part == ['.']

def up : Text :=
  ['.', '.']

def moves (path : Text) : List Text :=
  (Text.splitOn '/' path).filter (!stays ·)

def isDash (path : Text) : Bool :=
  match Text.splitOn '/' path with
  | first :: rest => first == ['-'] && rest.all stays
  | [] => false

-- A path inside a directory: a relative path is appended, an absolute one stands for itself.
def join (directory path : Text) : Text :=
  if isAbsolute path then path
  else if directory = [] then path
  else if directory.getLast? = some '/' then directory ++ path
  else directory ++ '/' :: path

def step (place : Place) (part : Text) : Place :=
  if stays part then place
  else if part = up then place.dropLast
  else place ++ [part]

def stretches {α : Type} : List α → List (List α)
  | [] => []
  | first :: rest => [first] :: (stretches rest).map (first :: ·)

-- Everything that is passed on a path, from a working directory: each stretch of it as a path,
-- and the place where it would end if all parts before its last are directories.
def waypoints (working : Place) (path : Text) : List (Text × Place) :=
  let start := if isAbsolute path then [] else working
  let passed := (stretches (Text.splitOn '/' path)).map fun parts =>
    (Text.joinWith ['/'] parts, parts.foldl step start)
  passed.filter fun (stretch, _) => stretch ≠ []

def ofPlace (place : Place) : Text :=
  '/' :: Text.joinWith ['/'] place

-- The way from one place to another, both given by the parts from the root: up to the last common
-- directory and down again.
def relative : List Text → List Text → List Text
  | part :: target, part' :: base =>
    if part = part' then relative target base
    else List.replicate (base.length + 1) up ++ part :: target
  | target, base => List.replicate base.length up ++ target

end Path

end OrderOfGrowth.Files
