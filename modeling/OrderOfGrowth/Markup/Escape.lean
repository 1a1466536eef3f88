import OrderOfGrowth.Text.Basic

/-!
Texts inside markup. `escapeContent` is the escaping between tags, where only the three characters
that could begin a tag or an entity, or end a tag, are written as entities. `escapeValue` is the
stricter escaping of values that may also stand inside quotes.
-/

set_option autoImplicit false

namespace OrderOfGrowth.Markup

def replaceChar (target : Char) (replacement : Text) (s : Text) : Text :=
  s.flatMap fun c => if c = target then replacement else [c]

-- A text as content. The ampersands come first: the other two entities bring their own.
def escapeContent (s : Text) : Text :=
  replaceChar '>' "&gt;".toList
    (replaceChar '<' "&lt;".toList (replaceChar '&' "&amp;".toList s))

def escapeValueChar (c : Char) : Text :=
  if c = '"' then "&quot;".toList
  else if c = '\'' then "&#x27;".toList
  else if c = '/' then "&#x2f;".toList
  else if c = '&' then "&amp;".toList
  else if c = '<' then "&lt;".toList
  else if c = '>' then "&gt;".toList
  else [c]

def escapeValue (s : Text) : Text :=
  s.flatMap escapeValueChar

end OrderOfGrowth.Markup
