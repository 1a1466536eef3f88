import OrderOfGrowth.Text.Numeral

/-!
The strings of TOML: basic ones, with escapes, and literal ones, without; each on one line or on
several. A string on several lines may hold up to two of its quotes in a row, also at its end, and a
line end right behind the opening quotes is not part of it.
-/

set_option autoImplicit false

namespace OrderOfGrowth.Toml

def isGap (c : Char) : Bool :=
  c == ' ' || c == '\t'

def afterLineEnd? : Text → Option Text
  | '\n' :: s => some s
  | '\r' :: '\n' :: s => some s
  | _ => none

def basicRest? : Nat → Text → Option (Text × Text)
  | 0, _ => none
  | _ + 1, [] => none
  | fuel + 1, c :: s =>
    if c = '"' then some ([], s)
    else if c = '\\' then do
      let (c, s) ← Text.escaped? s
      let (more, rest) ← basicRest? fuel s
      pure (c :: more, rest)
    else if Text.isControl c then none
    else do
      let (more, rest) ← basicRest? fuel s
      pure (c :: more, rest)

def literalRest? (s : Text) : Option (Text × Text) :=
  let found := s.takeWhile fun c => c ≠ '\'' && !Text.isControl c
  match s.drop found.length with
  | '\'' :: rest => some (found, rest)
  | _ => none

def skipBlankLines : Nat → Text → Text
  | 0, s => s
  | fuel + 1, s =>
    let s := s.dropWhile isGap
    match afterLineEnd? s with
    | some rest => skipBlankLines fuel rest
    | none => s

-- What follows a backslash that ends its line: the text goes on at the next character that is not
-- blank.
def afterFold? (s : Text) : Option Text :=
  (afterLineEnd? (s.dropWhile isGap)).map fun rest => skipBlankLines (rest.length + 1) rest

-- The quotes of a string on several lines at its current place: those that belong to it, and
-- whether it ends behind them.
def quoteRun (quote : Char) (s : Text) : Nat × Bool :=
  let length := (s.takeWhile (· = quote)).length
  if length < 3 then (length, false) else (min length 5 - 3, true)

def linesRest? (quote : Char) (escapes : Bool) : Nat → Text → Option (Text × Text)
  | 0, _ => none
  | _ + 1, [] => none
  | fuel + 1, c :: s =>
    if c = quote then
      let (inner, ends) := quoteRun quote (c :: s)
      if ends then some (List.replicate inner quote, (c :: s).drop (inner + 3))
      else do
        let (more, rest) ← linesRest? quote escapes fuel ((c :: s).drop inner)
        pure (List.replicate inner quote ++ more, rest)
    else if escapes && c == '\\' then
      match afterFold? s with
      | some s => linesRest? quote escapes fuel s
      | none => do
        let (c, s) ← Text.escaped? s
        let (more, rest) ← linesRest? quote escapes fuel s
        pure (c :: more, rest)
    else
      match afterLineEnd? (c :: s) with
      | some s => do
        let (more, rest) ← linesRest? quote escapes fuel s
        pure ('\n' :: more, rest)
      | none =>
        if Text.isControl c then none
        else do
          let (more, rest) ← linesRest? quote escapes fuel s
          pure (c :: more, rest)

def lines? (quote : Char) (escapes : Bool) (s : Text) : Option (Text × Text) :=
  let s := (afterLineEnd? s).getD s
  linesRest? quote escapes (s.length + 1) s

def lineString? : Text → Option (Text × Text)
  | '"' :: s => basicRest? (s.length + 1) s
  | '\'' :: s => literalRest? s
  | _ => none

def string? : Text → Option (Text × Text)
  | '"' :: '"' :: '"' :: s => lines? '"' true s
  | '\'' :: '\'' :: '\'' :: s => lines? '\'' false s
  | s => lineString? s

end OrderOfGrowth.Toml
