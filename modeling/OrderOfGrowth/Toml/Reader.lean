import OrderOfGrowth.Toml.Document
import OrderOfGrowth.Toml.Quoted
import OrderOfGrowth.Toml.Scalar

/-!
Reading TOML documents, line by line. Any fault in any line, and any name that is given twice,
refuses the whole document. The fuel of a reader bounds the number of its steps, and the length of
the text is always enough.
-/

set_option autoImplicit false

namespace OrderOfGrowth.Toml

open Settings (Value)

def nestingLimit : Nat :=
  79

def skipGap (s : Text) : Text :=
  s.dropWhile isGap

-- What follows a comment: the rest from the first character that a comment cannot hold.
def afterComment (s : Text) : Text :=
  s.dropWhile fun c => c ≠ '\n' && !Text.isControl c

def skipFiller : Nat → Text → Text
  | 0, s => s
  | fuel + 1, s =>
    match skipGap s with
    | '#' :: s => skipFiller fuel (afterComment s)
    | s =>
      match afterLineEnd? s with
      | some rest => skipFiller fuel rest
      | none => s

def skipAllFiller (s : Text) : Text :=
  skipFiller (s.length + 1) s

def isBareChar (c : Char) : Bool :=
  c.isAlphanum || c == '_' || c == '-'

def name? (s : Text) : Option (Text × Text) :=
  match s.takeWhile isBareChar with
  | [] => lineString? s
  | name => some (name, s.drop name.length)

def names? : Nat → Text → Option (List Text × Text)
  | 0, _ => none
  | fuel + 1, s => do
    let (name, s) ← name? (skipGap s)
    match skipGap s with
    | '.' :: s =>
      let (names, rest) ← names? fuel s
      pure (name :: names, rest)
    | s => pure ([name], s)

def key? (s : Text) : Option (List Text × Text) :=
  names? nestingLimit s

def assign? (key : List Text) (value : Value) (members : Members) : Option Members :=
  match key.reverse with
  | [] => none
  | last :: before => members.addDotted? value last before.reverse

mutual

-- A value. `depth` is how many arrays and inline tables may still be opened.
def value? : Nat → Nat → Text → Option (Value × Text)
  | 0, _, _ => none
  | fuel + 1, depth, s =>
    match s with
    | '"' :: _ => (string? s).map fun (found, rest) => (.text found, rest)
    | '\'' :: _ => (string? s).map fun (found, rest) => (.text found, rest)
    | '[' :: s =>
      match depth with
      | 0 => none
      | depth + 1 => (items? fuel depth s).map fun (items, rest) => (.list items, rest)
    | '{' :: s =>
      match depth with
      | 0 => none
      | depth + 1 =>
        match skipGap s with
        | '}' :: rest => some (.table [], rest)
        | s => (inline? fuel depth [] s).map fun (members, rest) =>
          (.table (membersToValues members), rest)
    | s => scalar? s

-- The items of an array and its closing bracket. A comma may stand behind the last item.
def items? : Nat → Nat → Text → Option (List Value × Text)
  | 0, _, _ => none
  | fuel + 1, depth, s =>
    match skipAllFiller s with
    | ']' :: rest => some ([], rest)
    | s => do
      let (item, s) ← value? fuel depth s
      match skipAllFiller s with
      | ']' :: rest => pure ([item], rest)
      | ',' :: s =>
        let (items, rest) ← items? fuel depth s
        pure (item :: items, rest)
      | _ => none

def inline? : Nat → Nat → Members → Text → Option (Members × Text)
  | 0, _, _, _ => none
  | fuel + 1, depth, members, s => do
    let (key, s) ← key? s
    let s ← Text.after? ['='] s
    let (value, s) ← value? fuel depth (skipGap s)
    let members ← assign? key value members
    match skipGap s with
    | '}' :: rest => pure (members, rest)
    | ',' :: s => inline? fuel depth members s
    | _ => none

end

-- What follows the end of a line: gaps and a comment may stand before it, and the end of the
-- document serves as well.
def afterLine? (s : Text) : Option Text :=
  let s :=
    match skipGap s with
    | '#' :: s => afterComment s
    | s => s
  if s = [] then some [] else afterLineEnd? s

-- A document as far as it has been read: all tables, and the one that is open.
structure Document where
  members : Members
  current : List Text

namespace Document

def assign? (document : Document) (key : List Text) (value : Value) : Option Document :=
  (document.members.descend? (Toml.assign? key value) document.current).map fun members =>
    { document with members }

def openTable? (document : Document) (key : List Text) : Option Document :=
  match key.reverse with
  | [] => none
  | last :: before =>
    (document.members.descend? (Members.openTable? last) before.reverse).map (⟨·, key⟩)

def openNext? (document : Document) (key : List Text) : Option Document :=
  match key.reverse with
  | [] => none
  | last :: before =>
    (document.members.descend? (Members.openNext? last) before.reverse).map (⟨·, key⟩)

end Document

def readLines? : Nat → Document → Text → Option Document
  | 0, _, _ => none
  | fuel + 1, document, s =>
    match skipGap s with
    | [] => some document
    | '[' :: '[' :: s => do
      let (key, s) ← key? s
      let s ← Text.after? "]]".toList s
      let document ← document.openNext? key
      let s ← afterLine? s
      readLines? fuel document s
    | '[' :: s => do
      let (key, s) ← key? s
      let s ← Text.after? "]".toList s
      let document ← document.openTable? key
      let s ← afterLine? s
      readLines? fuel document s
    | c :: s =>
      if c = '#' ∨ c = '\n' ∨ c = '\r' then do
        let s ← afterLine? (c :: s)
        readLines? fuel document s
      else do
        let (key, s) ← key? (c :: s)
        let s ← Text.after? "=".toList s
        let (value, s) ← value? (2 * s.length + 2) nestingLimit (skipGap s)
        let document ← document.assign? key value
        let s ← afterLine? s
        readLines? fuel document s

-- Reads a document. A byte-order mark may stand in front.
def parse? (s : Text) : Option (List (Text × Value)) :=
  let s :=
    match s with
    | '\ufeff' :: s => s
    | s => s
  (readLines? (s.length + 1) ⟨[], []⟩ s).map fun document => membersToValues document.members

end OrderOfGrowth.Toml
