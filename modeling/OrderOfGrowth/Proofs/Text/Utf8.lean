import OrderOfGrowth.Text.Utf8

/-!
Bytes of texts. Each encoded character is read back by the branch of its length, whatever bytes come
behind it, so that the strict reading of an encoded text is the text (`decode_strict_encode`).
-/

set_option autoImplicit false

namespace OrderOfGrowth.Text

theorem decode_one (b : UInt8) (bytes : List UInt8) (single : b < 0x80) :
    decode (b :: bytes) = Char.ofNat b.toNat :: decode bytes := by
  rcases bytes with _ | ⟨c, _ | ⟨d, _ | ⟨e, bytes⟩⟩⟩ <;> simp [decode, single]

theorem decode_two (b c : UInt8) (bytes : List UInt8) (several : ¬ b < 0x80)
    (leads : (leadsTwo b && isContinuation c) = true) :
    decode (b :: c :: bytes) = Char.ofNat (b.toNat % 32 * 64 + lowBits c) :: decode bytes := by
  rcases bytes with _ | ⟨d, _ | ⟨e, bytes⟩⟩ <;> simp only [decode, several, leads, if_true, if_false]

theorem decode_three (b c d : UInt8) (bytes : List UInt8) (several : ¬ b < 0x80)
    (other : (leadsTwo b && isContinuation c) = false) (leads : leadsThree b c = true)
    (continued : isContinuation d = true) :
    decode (b :: c :: d :: bytes) =
      Char.ofNat (b.toNat % 16 * 4096 + lowBits c * 64 + lowBits d) :: decode bytes := by
  rcases bytes with _ | ⟨e, bytes⟩ <;>
    simp only [decode, several, other, leads, continued, if_true, if_false, Bool.false_eq_true]

theorem decode_four (b c d e : UInt8) (bytes : List UInt8) (several : ¬ b < 0x80)
    (other : (leadsTwo b && isContinuation c) = false) (notThree : leadsThree b c = false)
    (leads : leadsFour b c = true) (continued : isContinuation d = true)
    (ends : isContinuation e = true) :
    decode (b :: c :: d :: e :: bytes) =
      Char.ofNat (b.toNat % 8 * 262144 + lowBits c * 4096 + lowBits d * 64 + lowBits e) ::
        decode bytes := by
  simp only [decode, several, other, notThree, leads, continued, ends, if_true, if_false,
    Bool.false_eq_true]

-- The bytes of a character: what is read of them is arithmetic on its code point.
theorem continuation_byte (n : Nat) (small : n < 64) :
    isContinuation (.ofNat (n + 128)) = true ∧ lowBits (.ofNat (n + 128)) = n := by
  simp [isContinuation, lowBits, UInt8.le_iff_toNat_le]
  omega

theorem several_byte (n : Nat) (large : 128 ≤ n) (small : n < 256) : ¬ UInt8.ofNat n < 0x80 := by
  simp [UInt8.lt_iff_toNat_lt]
  omega

theorem leads_two_byte (n : Nat) (low : 2 ≤ n) (high : n < 32) : leadsTwo (.ofNat (n + 192)) = true := by
  simp [leadsTwo, UInt8.le_iff_toNat_le]
  omega

theorem leads_two_not (n : Nat) (low : 224 ≤ n) (high : n < 256) : leadsTwo (.ofNat n) = false := by
  simp [leadsTwo, UInt8.le_iff_toNat_le]
  omega

theorem leads_three_bytes (n m : Nat) (low : n < 16) (high : m < 64) (short : n = 0 → 32 ≤ m)
    (surrogate : n = 13 → m < 32) : leadsThree (.ofNat (n + 224)) (.ofNat (m + 128)) = true := by
  simp [leadsThree, isContinuation, UInt8.le_iff_toNat_le, ← UInt8.toNat_inj]
  omega

theorem leads_three_not (n : Nat) (c : UInt8) (low : 240 ≤ n) (high : n < 256) :
    leadsThree (.ofNat n) c = false := by
  simp [leadsThree, UInt8.le_iff_toNat_le, ← UInt8.toNat_inj]
  omega

theorem leads_four_bytes (n m : Nat) (low : n < 5) (high : m < 64) (short : n = 0 → 16 ≤ m)
    (beyond : n = 4 → m < 16) : leadsFour (.ofNat (n + 240)) (.ofNat (m + 128)) = true := by
  simp [leadsFour, isContinuation, UInt8.le_iff_toNat_le, ← UInt8.toNat_inj]
  omega

theorem byte_value (n : Nat) (small : n < 256) : (UInt8.ofNat n).toNat = n := by
  rw [UInt8.toNat_ofNat', Nat.mod_eq_of_lt small]

theorem decode_encode_char (c : Char) (bytes : List UInt8) :
    decode (String.utf8EncodeChar c ++ bytes) = c :: decode bytes := by
  have scalar : c.val.toNat < 0xD800 ∨ (0xDFFF < c.val.toNat ∧ c.val.toNat < 0x110000) := c.valid
  have back : Char.ofNat c.val.toNat = c := Char.ofNat_toNat c
  generalize size : c.val.toNat = n at scalar back
  obtain ⟨lastContinues, lastBits⟩ := continuation_byte (n % 64) (by omega)
  obtain ⟨middleContinues, middleBits⟩ := continuation_byte (n / 64 % 64) (by omega)
  obtain ⟨upperContinues, upperBits⟩ := continuation_byte (n / 4096 % 64) (by omega)
  simp only [String.utf8EncodeChar, size]
  by_cases one : n ≤ 127
  · have single : UInt8.ofNat n < 0x80 := by
      rw [UInt8.lt_iff_toNat_lt, byte_value n (by omega)]
      exact Nat.lt_succ_of_le one
    rw [if_pos one, List.singleton_append, decode_one _ _ single, byte_value n (by omega), back]
  by_cases two : n ≤ 2047
  · have leads := leads_two_byte (n / 64 % 32) (by omega) (by omega)
    have bits : (n / 64 % 32 + 192) % 32 * 64 + n % 64 = n := by omega
    rw [if_neg one, if_pos two, List.cons_append, List.cons_append, List.nil_append,
      decode_two _ _ _ (several_byte _ (by omega) (by omega)) (by rw [leads, lastContinues]; rfl),
      byte_value _ (by omega), lastBits, bits, back]
  by_cases three : n ≤ 65535
  · have other := leads_two_not (n / 4096 % 16 + 224) (by omega) (by omega)
    have leads := leads_three_bytes (n / 4096 % 16) (n / 64 % 64) (by omega) (by omega) (by omega) (by omega)
    have bits : (n / 4096 % 16 + 224) % 16 * 4096 + n / 64 % 64 * 64 + n % 64 = n := by omega
    rw [if_neg one, if_neg two, if_pos three, List.cons_append, List.cons_append, List.cons_append,
      List.nil_append,
      decode_three _ _ _ _ (several_byte _ (by omega) (by omega)) (by rw [other]; rfl) leads lastContinues,
      byte_value _ (by omega), middleBits, lastBits, bits, back]
  have other := leads_two_not (n / 262144 % 8 + 240) (by omega) (by omega)
  have notThree := leads_three_not (n / 262144 % 8 + 240) (.ofNat (n / 4096 % 64 + 128)) (by omega) (by omega)
  have leads := leads_four_bytes (n / 262144 % 8) (n / 4096 % 64) (by omega) (by omega) (by omega) (by omega)
  have bits : (n / 262144 % 8 + 240) % 8 * 262144 + n / 4096 % 64 * 4096 + n / 64 % 64 * 64 + n % 64 = n := by
    omega
  rw [if_neg one, if_neg two, if_neg three, List.cons_append, List.cons_append, List.cons_append,
    List.cons_append, List.nil_append,
    decode_four _ _ _ _ _ (several_byte _ (by omega) (by omega)) (by rw [other]; rfl) notThree leads
      middleContinues lastContinues,
    byte_value _ (by omega), upperBits, middleBits, lastBits, bits, back]

theorem decode_encode (s : Text) : decode (encode s) = s := by
  induction s with
  | nil => rfl
  | cons c s ih =>
      have split : encode (c :: s) = String.utf8EncodeChar c ++ encode s := List.flatMap_cons
      rw [split, decode_encode_char, ih]

theorem decode_strict_encode (s : Text) : decodeStrict? (encode s) = some s := by
  simp only [decodeStrict?, decode_encode, if_true]

end OrderOfGrowth.Text
