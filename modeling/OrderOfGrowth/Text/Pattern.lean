import OrderOfGrowth.Text.WhiteSpace

/-!
Patterns over texts. A pattern can often be satisfied in several ways; `ways` lists what each way
leaves of the text, the preferred way first. A search goes from left to right and takes the
preferred way at the first place that has one.
-/

set_option autoImplicit false

namespace OrderOfGrowth

-- `run` takes as many characters of a class as it can, `shortRun` as few; `many` repeats a whole
-- pattern as often as it can.
inductive Pattern where
  | empty
  | char (test : Char → Bool)
  | run (test : Char → Bool)
  | shortRun (test : Char → Bool)
  | seq (first second : Pattern)
  | alt (left right : Pattern)
  | many (body : Pattern)

namespace Pattern

def runWays (test : Char → Bool) (shorter : List Text) : Text → List Text
  | [] => [] :: shorter
  | c :: s => if test c then runWays test ((c :: s) :: shorter) s else (c :: s) :: shorter

def shortRunWays (test : Char → Bool) : Text → List Text
  | [] => [[]]
  | c :: s => (c :: s) :: if test c then shortRunWays test s else []

-- The number bounds the turns: no repetition needs more of them than there are characters.
def manyWays (step : Text → List Text) : Nat → Text → List Text
  | 0, s => [s]
  | turns + 1, s => (step s).flatMap (manyWays step turns) ++ [s]

def ways : Pattern → Text → List Text
  | empty, s => [s]
  | char _, [] => []
  | char test, c :: s => if test c then [s] else []
  | run test, s => runWays test [] s
  | shortRun test, s => shortRunWays test s
  | seq first second, s => (ways first s).flatMap (ways second)
  | alt left right, s => ways left s ++ ways right s
  | many body, s => manyWays (ways body) s.length s

def sequence (parts : List Pattern) : Pattern :=
  parts.foldr seq empty

def one (c : Char) : Pattern :=
  char (· == c)

def text (s : Text) : Pattern :=
  sequence (s.map one)

def someRun (test : Char → Bool) : Pattern :=
  seq (char test) (run test)

def white : Pattern :=
  run Text.isWhiteSpace

def except (c : Char) : Pattern :=
  run (· != c)

def optional (body : Pattern) : Pattern :=
  alt body empty

def rest? (pattern : Pattern) (s : Text) : Option Text :=
  (ways pattern s).head?

def captured? (first second : Pattern) (s : Text) : Option Text :=
  (ways first s).findSome? fun rest =>
    if ways second rest = [] then none else some (s.take (s.length - rest.length))

-- The next three run through the suffixes of a text at once. A table says of each suffix, longest
-- first, whether something holds of it.
def charTable (test : Char → Bool) : Text → List Bool → List Bool
  | c :: s, _ :: table => (test c && table.headD false) :: charTable test s table
  | _, _ => [false]

def runTable (test : Char → Bool) : Text → List Bool → List Bool
  | c :: s, holds :: table =>
    let behind := runTable test s table
    (holds || (test c && behind.headD false)) :: behind
  | _, table => table

def table : Pattern → Text → List Bool → List Bool
  | empty, _, after => after
  | char test, s, after => charTable test s after
  | run test, s, after => runTable test s after
  | shortRun test, s, after => runTable test s after
  | seq first second, s, after => table first s (table second s after)
  | alt left right, s, after => List.zipWith or (table left s after) (table right s after)
  | many body, s, after =>
    Nat.repeat (fun current => List.zipWith or (table body s current) after) s.length after

def occurs (pattern : Pattern) (s : Text) : Bool :=
  (table pattern s (List.replicate (s.length + 1) true)).any id

end Pattern

namespace Text

def firstSuffix? {α : Type} (find? : Text → Option α) : Text → Option α
  | [] => find? []
  | c :: s =>
    match find? (c :: s) with
    | some a => some a
    | none => firstSuffix? find? s

structure Found (κ : Type) where
  kind : κ
  start : Nat
  stop : Nat
  deriving DecidableEq, Repr

-- What is found in a text from left to right, no two stretches overlapping. A search is given the
-- character in front of the rest of the text, and says what it leaves of that rest.
def findAllFrom {κ : Type} (find? : Option Char → Text → Option (κ × Text)) (position : Nat)
    (before : Option Char) : Text → List (Found κ)
  | [] => []
  | c :: s =>
    match find? before (c :: s) with
    | none => findAllFrom find? (position + 1) (some c) s
    | some (kind, rest) =>
      -- The search goes on behind the stretch; an empty stretch is passed over.
      if shorter : rest.length < s.length + 1 then
        let taken := s.length + 1 - rest.length
        ⟨kind, position, position + taken⟩ ::
          findAllFrom find? (position + taken) ((c :: s).take taken).getLast? rest
      else findAllFrom find? (position + 1) (some c) s
termination_by s => s.length

def findAll {κ : Type} (find? : Option Char → Text → Option (κ × Text)) (s : Text) :
    List (Found κ) :=
  findAllFrom find? 0 none s

end Text

end OrderOfGrowth
