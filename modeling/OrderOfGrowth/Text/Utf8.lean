import OrderOfGrowth.Text.Basic

/-!
Bytes and texts. `decode` reads any bytes as UTF-8: where they are not well formed, each longest
beginning of a character that cannot be completed, and otherwise each single byte, becomes one
replacement character. `encode` writes a text, and `decodeStrict?` reads only well formed bytes.
-/

set_option autoImplicit false

namespace OrderOfGrowth.Text

def encode (s : Text) : List UInt8 :=
  s.flatMap String.utf8EncodeChar

def replacement : Char :=
  '\ufffd'

def isContinuation (b : UInt8) : Bool :=
  0x80 ≤ b && b ≤ 0xBF

def leadsTwo (b : UInt8) : Bool :=
  0xC2 ≤ b && b ≤ 0xDF

-- The beginnings of three-byte characters: overlong forms and surrogates are left out.
def leadsThree (b c : UInt8) : Bool :=
  (b == 0xE0 && 0xA0 ≤ c && c ≤ 0xBF) ||
    (((0xE1 ≤ b && b ≤ 0xEC) || b == 0xEE || b == 0xEF) && isContinuation c) ||
    (b == 0xED && 0x80 ≤ c && c ≤ 0x9F)

-- The beginnings of four-byte characters: overlong forms and what lies beyond the last code point
-- are left out.
def leadsFour (b c : UInt8) : Bool :=
  (b == 0xF0 && 0x90 ≤ c && c ≤ 0xBF) ||
    (0xF1 ≤ b && b ≤ 0xF3 && isContinuation c) ||
    (b == 0xF4 && 0x80 ≤ c && c ≤ 0x8F)

def lowBits (b : UInt8) : Nat :=
  b.toNat % 64

def decode : List UInt8 → Text
  | [] => []
  | [b] => [if b < 0x80 then Char.ofNat b.toNat else replacement]
  | [b, c] =>
    if b < 0x80 then Char.ofNat b.toNat :: decode [c]
    else if leadsTwo b && isContinuation c then [Char.ofNat (b.toNat % 32 * 64 + lowBits c)]
    else if leadsThree b c || leadsFour b c then [replacement]
    else replacement :: decode [c]
  | [b, c, d] =>
    if b < 0x80 then Char.ofNat b.toNat :: decode [c, d]
    else if leadsTwo b && isContinuation c then
      Char.ofNat (b.toNat % 32 * 64 + lowBits c) :: decode [d]
    else if leadsThree b c then
      if isContinuation d then
        [Char.ofNat (b.toNat % 16 * 4096 + lowBits c * 64 + lowBits d)]
      else replacement :: decode [d]
    else if leadsFour b c then
      if isContinuation d then [replacement] else replacement :: decode [d]
    else replacement :: decode [c, d]
  | b :: c :: d :: e :: bytes =>
    if b < 0x80 then Char.ofNat b.toNat :: decode (c :: d :: e :: bytes)
    else if leadsTwo b && isContinuation c then
      Char.ofNat (b.toNat % 32 * 64 + lowBits c) :: decode (d :: e :: bytes)
    else if leadsThree b c then
      if isContinuation d then
        Char.ofNat (b.toNat % 16 * 4096 + lowBits c * 64 + lowBits d) :: decode (e :: bytes)
      else replacement :: decode (d :: e :: bytes)
    else if leadsFour b c then
      if isContinuation d then
        if isContinuation e then
          Char.ofNat (b.toNat % 8 * 262144 + lowBits c * 4096 + lowBits d * 64 + lowBits e) ::
            decode bytes
        else replacement :: decode (e :: bytes)
      else replacement :: decode (d :: e :: bytes)
    else replacement :: decode (c :: d :: e :: bytes)

-- The text that bytes stand for, if they are well formed: they are the bytes of some text exactly
-- if they are the bytes of the text read from them.
def decodeStrict? (bytes : List UInt8) : Option Text :=
  let s := decode bytes
  if encode s = bytes then some s else none

end OrderOfGrowth.Text
