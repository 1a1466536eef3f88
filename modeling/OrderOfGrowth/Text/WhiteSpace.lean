import OrderOfGrowth.Text.Basic

/-!
White space, and the margin that is trimmed from lines and from whole sources. `isWhiteSpace` is
the Unicode property White_Space: it has the no-break spaces and the line and paragraph separators,
and neither the zero-width space nor the byte-order mark.
-/

set_option autoImplicit false

namespace OrderOfGrowth.Text

def isWhiteSpace (c : Char) : Bool :=
  let n := c.toNat
  (9 ≤ n && n ≤ 13) || n == 32 || n == 0x85 || n == 0xA0 || n == 0x1680 ||
    (0x2000 ≤ n && n ≤ 0x200A) || n == 0x2028 || n == 0x2029 || n == 0x202F || n == 0x205F ||
    n == 0x3000

-- The blanks of the ASCII range: tab, line feed, form feed, carriage return and space.
def isAsciiBlank (c : Char) : Bool :=
  c == ' ' || c == '\t' || c == '\n' || c == '\x0c' || c == '\r'

def isMargin (c : Char) : Bool :=
  isWhiteSpace c || c == '\ufeff'

def trimBy (drop : Char → Bool) (s : Text) : Text :=
  ((s.dropWhile drop).reverse.dropWhile drop).reverse

def trimMargin (s : Text) : Text :=
  trimBy isMargin s

def skipWhite (s : Text) : Text :=
  s.dropWhile isWhiteSpace

end OrderOfGrowth.Text
