import OrderOfGrowth.Text.Pattern
import OrderOfGrowth.Text.WordChar

/-!
The tokens of C. Each kind has a pattern; the kinds are tried in a fixed order and the first that
fits wins. Sources need not be valid: whatever is no token is left between tokens.
-/

set_option autoImplicit false

namespace OrderOfGrowth.Markup

inductive TokenKind where
  | comment | string | directive | keyword | number | identifier | operator | punctuation
  deriving DecidableEq, Repr

namespace Token

open Text (isNameChar isWordChar isWhiteSpace)

def keywords : List Text :=
  ["auto", "break", "case", "char", "const", "continue", "default", "do", "double", "else", "enum",
    "extern", "float", "for", "goto", "if", "inline", "int", "long", "register", "return", "short",
    "signed", "sizeof", "static", "struct", "switch", "typedef", "union", "unsigned", "void",
    "volatile", "while"].map String.toList

def isOperatorChar (c : Char) : Bool :=
  "-+*/%=<>!&|^~?:".toList.contains c

def isPunctuation (c : Char) : Bool :=
  "\x7b\x7d[]();,.".toList.contains c

def comment : Pattern :=
  .alt (.sequence [.text "//".toList, .except '\n'])
    (.sequence [.text "/*".toList, .shortRun fun _ => true, .text "*/".toList])

-- A literal in quotes, on one line. A backslash takes the next character with it.
def quoted (quote : Char) : Pattern :=
  .sequence [.one quote,
    .many (.alt (.char fun c => c != quote && c != '\\' && c != '\n')
      (.seq (.one '\\') (.char (· != '\n')))),
    .one quote]

def directive : Pattern :=
  .sequence [.one '#', .white, .someRun Char.isAlpha]

def anyOf (words : List Text) : Pattern :=
  words.foldr (fun word pattern => .alt (.text word) pattern) (.char fun _ => false)

def number : Pattern :=
  .alt
    (.sequence [.one '0', .char fun c => c == 'x' || c == 'X',
      .someRun fun c => (Text.hexValue? c).isSome])
    (.sequence [.someRun Char.isDigit,
      .optional (.sequence [.one '.', .someRun Char.isDigit])])

def identifier : Pattern :=
  .seq (.char fun c => c.isAlpha || c == '_') (.run isNameChar)

def pattern : TokenKind → Pattern
  | .comment => comment
  | .string => .alt (quoted '"') (quoted '\'')
  | .directive => directive
  | .keyword => anyOf keywords
  | .number => number
  | .identifier => identifier
  | .operator => .someRun isOperatorChar
  | .punctuation => .char isPunctuation

def isBounded : TokenKind → Bool
  | .keyword | .number => true
  | _ => false

def isEdge (before : Option Char) (s : Text) : Bool :=
  before.any isWordChar != s.head?.any isWordChar

def lastBefore (before : Option Char) (s rest : Text) : Option Char :=
  (s.take (s.length - rest.length)).getLast?.or before

def ways (kind : TokenKind) (before : Option Char) (s : Text) : List Text :=
  if isBounded kind then
    if isEdge before s then
      ((pattern kind).ways s).filter fun rest => isEdge (lastBefore before s rest) rest
    else []
  else (pattern kind).ways s

def kinds : List TokenKind :=
  [.comment, .string, .directive, .keyword, .number, .identifier, .operator, .punctuation]

def first? (before : Option Char) (s : Text) : Option (TokenKind × Text) :=
  kinds.findSome? fun kind => (ways kind before s).head?.map (kind, ·)

def all (s : Text) : List (Text.Found TokenKind) :=
  Text.findAll first? s

end Token

end OrderOfGrowth.Markup
