import OrderOfGrowth.Markup.Escape
import OrderOfGrowth.Markup.Token

/-!
Highlighted texts. A text is cut into pieces, each with a style or without; joined, the pieces give
the text back, and rendered, each becomes escaped content, inside a span if it is styled.
-/

set_option autoImplicit false

namespace OrderOfGrowth.Markup

inductive Style where
  | comment | string | directive | keyword | number | function | operator | punctuation
  deriving DecidableEq, Repr

def Style.name : Style → Text
  | .comment => "comment".toList
  | .string => "string".toList
  | .directive => "macro".toList
  | .keyword => "keyword".toList
  | .number => "number".toList
  | .function => "function".toList
  | .operator => "operator".toList
  | .punctuation => "punctuation".toList

structure Piece where
  style : Option Style
  text : Text
  deriving DecidableEq, Repr

namespace Piece

def openTag (style : Style) : Text :=
  "<span class=\"token ".toList ++ style.name ++ "\">".toList

def closeTag : Text :=
  "</span>".toList

def render (piece : Piece) : Text :=
  match piece.style with
  | some style => openTag style ++ escapeContent piece.text ++ closeTag
  | none => escapeContent piece.text

end Piece

-- The style of a token, given what follows it: an identifier is styled only as a function, which
-- it is if an opening parenthesis comes next.
def styleOf (kind : TokenKind) (rest : Text) : Option Style :=
  match kind with
  | .comment => some .comment
  | .string => some .string
  | .directive => some .directive
  | .keyword => some .keyword
  | .number => some .number
  | .identifier => if (Text.skipWhite rest).head? = some '(' then some .function else none
  | .operator => some .operator
  | .punctuation => some .punctuation

def slice (s : Text) (start stop : Nat) : Text :=
  (s.take stop).drop start

-- The pieces from a position on: the gap in front of each token, the token, and in the end what
-- is left.
def piecesFrom (s : Text) (last : Nat) : List (Text.Found TokenKind) → List Piece
  | [] => [⟨none, s.drop last⟩]
  | token :: tokens =>
    ⟨none, slice s last token.start⟩ ::
      ⟨styleOf token.kind (s.drop token.stop), slice s token.start token.stop⟩ ::
      piecesFrom s token.stop tokens

def pieces (s : Text) : List Piece :=
  piecesFrom s 0 (Token.all s)

def render (pieces : List Piece) : Text :=
  pieces.flatMap Piece.render

-- A way to highlight: the markup of a text in a language.
abbrev Highlighting :=
  Text → Text → Text

-- The ways there are: by tokens, or not at all.
inductive Highlighter where
  | tokens
  | plain
  deriving DecidableEq, Repr

namespace Highlighter

def ofSwitch (enabled : Bool) : Highlighter :=
  if enabled then .tokens else .plain

-- Whether a language has tokens: only C has, under a name of either case.
def knows (language : Text) : Bool :=
  language == ['c'] || language == ['C']

def piecesOf (highlighter : Highlighter) (language s : Text) : List Piece :=
  match highlighter with
  | .tokens => if knows language then pieces s else [⟨none, s⟩]
  | .plain => [⟨none, s⟩]

def highlight (highlighter : Highlighter) (language s : Text) : Text :=
  render (highlighter.piecesOf language s)

instance : Coe Highlighter Highlighting :=
  ⟨highlight⟩

end Highlighter

end OrderOfGrowth.Markup
