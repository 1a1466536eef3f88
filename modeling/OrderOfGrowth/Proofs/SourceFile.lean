import OrderOfGrowth.Proofs.Text.Lines
import OrderOfGrowth.Proofs.Text.Utf8
import OrderOfGrowth.SourceFile
import Mathlib.Data.List.Count

/-!
Sources as bytes. The text of a source is read piece by piece, each ASCII byte as its character and
everything else as other characters (`decode_reads`), so the lines of the text are those that the line
feeds among the bytes make.
-/

set_option autoImplicit false

namespace OrderOfGrowth

namespace Text

def isAscii (c : Char) : Bool :=
  c.toNat < 0x80

def asciiOf (b : UInt8) : Char :=
  Char.ofNat b.toNat

-- What is read at once: an ASCII byte as its character, or bytes none of which is one as a character
-- that is none either.
inductive ReadsOne : List UInt8 → Char → Prop
  | ascii (b : UInt8) : b < 0x80 → ReadsOne [b] (asciiOf b)
  | other (bytes : List UInt8) (c : Char) : bytes ≠ [] → (∀ b ∈ bytes, 0x80 ≤ b) → isAscii c = false →
      ReadsOne bytes c

inductive Reads : List UInt8 → Text → Prop
  | nil : Reads [] []
  | cons (front bytes : List UInt8) (c : Char) (s : Text) : ReadsOne front c → Reads bytes s →
      Reads (front ++ bytes) (c :: s)

-- Beginnings of characters that are not completed, as far as they go.
section Broken

variable (b c d : UInt8) (bytes : List UInt8) (several : ¬ b < 0x80)

include several

theorem decode_lone (alone : ∀ c ∈ bytes.head?, (leadsTwo b && isContinuation c) = false ∧
    leadsThree b c = false ∧ leadsFour b c = false) :
    decode (b :: bytes) = replacement :: decode bytes := by
  rcases bytes with _ | ⟨c, _ | ⟨d, _ | ⟨e, bytes⟩⟩⟩
  · simp [decode, several]
  all_goals
    obtain ⟨two, three, four⟩ := alone c rfl
    simp only [decode, several, two, three, four, if_false, Bool.false_eq_true, Bool.or_self]

theorem decode_two_of_more (two : (leadsTwo b && isContinuation c) = false)
    (leads : leadsThree b c = true ∨ leadsFour b c = true)
    (broken : ∀ d ∈ bytes.head?, isContinuation d = false) :
    decode (b :: c :: bytes) = replacement :: decode bytes := by
  rcases bytes with _ | ⟨d, _ | ⟨e, bytes⟩⟩
  · simp [decode, several, two, leads]
  all_goals
    have stops := broken d rfl
    rcases leads with three | four
    · simp only [decode, several, two, three, stops, if_true, if_false, Bool.false_eq_true]
    · simp only [decode, several, two, four, stops, if_true, if_false, Bool.false_eq_true, ite_self]

theorem decode_three_of_four (two : (leadsTwo b && isContinuation c) = false) (three : leadsThree b c = false)
    (four : leadsFour b c = true) (continued : isContinuation d = true)
    (broken : ∀ e ∈ bytes.head?, isContinuation e = false) :
    decode (b :: c :: d :: bytes) = replacement :: decode bytes := by
  rcases bytes with _ | ⟨e, bytes⟩
  · simp [decode, several, two, three, four, continued]
  · have stops := broken e rfl
    simp only [decode, several, two, three, four, continued, stops, if_true, if_false, Bool.false_eq_true]

end Broken

theorem large_not_ascii (n : Nat) (valid : n.isValidChar) (large : 0x80 ≤ n) :
    isAscii (Char.ofNat n) = false := by
  have code : (Char.ofNat n).toNat = n := by
    rw [Char.ofNat, dif_pos valid]
    rfl
  rw [isAscii, code, decide_eq_false_iff_not]
  omega

section Bytes

variable (b c d e : UInt8)

theorem continuation_not_ascii (continued : isContinuation c = true) : 0x80 ≤ c := by
  rw [isContinuation, Bool.and_eq_true, decide_eq_true_eq] at continued
  exact continued.1

theorem second_not_ascii (leads : leadsThree b c = true ∨ leadsFour b c = true) : 0x80 ≤ c := by
  simp [leadsThree, leadsFour, isContinuation, UInt8.le_iff_toNat_le] at leads ⊢
  omega

theorem two_not_ascii (leads : leadsTwo b = true) :
    isAscii (Char.ofNat (b.toNat % 32 * 64 + lowBits c)) = false := by
  simp only [leadsTwo, UInt8.le_iff_toNat_le, Bool.and_eq_true, decide_eq_true_eq] at leads
  have low : (0xC2 : UInt8).toNat = 194 := rfl
  have high : (0xDF : UInt8).toNat = 223 := rfl
  rw [lowBits]
  exact large_not_ascii _ (.inl (by omega)) (by omega)

theorem three_not_ascii (leads : leadsThree b c = true) :
    isAscii (Char.ofNat (b.toNat % 16 * 4096 + lowBits c * 64 + lowBits d)) = false := by
  simp [leadsThree, isContinuation, UInt8.le_iff_toNat_le, ← UInt8.toNat_inj] at leads
  rw [lowBits, lowBits]
  apply large_not_ascii
  · rw [Nat.isValidChar]
    omega
  · omega

theorem four_not_ascii (leads : leadsFour b c = true) :
    isAscii (Char.ofNat (b.toNat % 8 * 262144 + lowBits c * 4096 + lowBits d * 64 + lowBits e)) = false := by
  simp [leadsFour, isContinuation, UInt8.le_iff_toNat_le, ← UInt8.toNat_inj] at leads
  rw [lowBits, lowBits, lowBits]
  apply large_not_ascii
  · rw [Nat.isValidChar]
    omega
  · omega

end Bytes

-- The first character that is read, and the bytes that it is read from.
def ReadsFirst (bytes : List UInt8) : Prop :=
  ∃ front c rest, bytes = front ++ rest ∧ ReadsOne front c ∧ decode bytes = c :: decode rest

theorem replacement_not_ascii : isAscii replacement = false := by
  decide

section First

variable (b c : UInt8) (bytes : List UInt8) (several : ¬ b < 0x80) (two : (leadsTwo b && isContinuation c) = false)

include several two

theorem broken_two_first (leads : leadsThree b c = true ∨ leadsFour b c = true)
    (broken : ∀ d ∈ bytes.head?, isContinuation d = false) : ReadsFirst (b :: c :: bytes) := by
  have first := UInt8.not_lt.mp several
  have second := second_not_ascii b c leads
  exact ⟨[b, c], replacement, bytes, rfl, .other _ _ (by simp) (by simp [first, second]) replacement_not_ascii,
    decode_two_of_more b c bytes several two leads broken⟩

theorem three_first (leads : leadsThree b c = true) : ReadsFirst (b :: c :: bytes) := by
  have first := UInt8.not_lt.mp several
  have second := second_not_ascii b c (.inl leads)
  by_cases completed : ∃ d rest, bytes = d :: rest ∧ isContinuation d = true
  · obtain ⟨d, rest, rfl, continued⟩ := completed
    have third := continuation_not_ascii d continued
    exact ⟨[b, c, d], _, rest, rfl, .other _ _ (by simp) (by simp [first, second, third])
      (three_not_ascii b c d leads), decode_three b c d rest several two leads continued⟩
  · refine broken_two_first b c bytes several two (.inl leads) fun d head => ?_
    rw [Bool.eq_false_iff]
    exact fun continued => completed ⟨d, bytes.tail, List.eq_cons_of_mem_head? head, continued⟩

theorem four_first (three : leadsThree b c = false) (leads : leadsFour b c = true) :
    ReadsFirst (b :: c :: bytes) := by
  have first := UInt8.not_lt.mp several
  have second := second_not_ascii b c (.inr leads)
  by_cases further : ∃ d rest, bytes = d :: rest ∧ isContinuation d = true
  · obtain ⟨d, rest, rfl, continued⟩ := further
    have third := continuation_not_ascii d continued
    by_cases completed : ∃ e after, rest = e :: after ∧ isContinuation e = true
    · obtain ⟨e, after, rfl, ends⟩ := completed
      have fourth := continuation_not_ascii e ends
      exact ⟨[b, c, d, e], _, after, rfl, .other _ _ (by simp) (by simp [first, second, third, fourth])
        (four_not_ascii b c d e leads), decode_four b c d e after several two three leads continued ends⟩
    · refine ⟨[b, c, d], replacement, rest, rfl, .other _ _ (by simp) (by simp [first, second, third])
        replacement_not_ascii, decode_three_of_four b c d rest several two three leads continued fun e head => ?_⟩
      rw [Bool.eq_false_iff]
      exact fun ends => completed ⟨e, rest.tail, List.eq_cons_of_mem_head? head, ends⟩
  · refine broken_two_first b c bytes several two (.inr leads) fun d head => ?_
    rw [Bool.eq_false_iff]
    exact fun continued => further ⟨d, bytes.tail, List.eq_cons_of_mem_head? head, continued⟩

end First

theorem reads_first (b : UInt8) (bytes : List UInt8) : ReadsFirst (b :: bytes) := by
  by_cases single : b < 0x80
  · exact ⟨[b], _, bytes, rfl, .ascii b single, decode_one b bytes single⟩
  have first := UInt8.not_lt.mp single
  have lone : ReadsOne [b] replacement := .other _ _ (by simp) (by simpa using first) replacement_not_ascii
  cases bytes with
  | nil => exact ⟨[b], _, [], rfl, lone, decode_lone b [] single (by simp)⟩
  | cons c bytes =>
      cases two : leadsTwo b && isContinuation c with
      | true =>
          obtain ⟨leads, continued⟩ := Bool.and_eq_true_iff.mp two
          have second := continuation_not_ascii c continued
          exact ⟨[b, c], _, bytes, rfl, .other _ _ (by simp) (by simp [first, second]) (two_not_ascii b c leads),
            decode_two b c bytes single two⟩
      | false =>
          cases three : leadsThree b c with
          | true => exact three_first b c bytes single two three
          | false =>
              cases four : leadsFour b c with
              | true => exact four_first b c bytes single two three four
              | false =>
                  have alone : ∀ d ∈ (c :: bytes).head?, (leadsTwo b && isContinuation d) = false ∧
                      leadsThree b d = false ∧ leadsFour b d = false := by
                    intro d head
                    obtain rfl : c = d := Option.some.inj head
                    exact ⟨two, three, four⟩
                  exact ⟨[b], _, c :: bytes, rfl, lone, decode_lone b (c :: bytes) single alone⟩

theorem decode_reads (bytes : List UInt8) : Reads bytes (decode bytes) := by
  induction size : bytes.length using Nat.strongRecOn generalizing bytes with
  | ind n ih =>
    cases bytes with
    | nil => exact .nil
    | cons b bytes =>
        obtain ⟨front, c, rest, split, one, decoded⟩ := reads_first b bytes
        have some : 0 < front.length := by
          cases one with
          | ascii => exact Nat.zero_lt_one
          | other _ _ nonempty => exact List.length_pos_iff.mpr nonempty
        have sizes := congrArg List.length split
        rw [List.length_append] at sizes
        rw [decoded, split]
        exact .cons front rest c _ one (ih rest.length (by omega) rest rfl)

theorem ascii_code (b : UInt8) : (asciiOf b).toNat = b.toNat := by
  have valid : b.toNat.isValidChar := .inl (Nat.lt_trans b.toNat_lt (by decide))
  rw [asciiOf, Char.ofNat, dif_pos valid]
  rfl

theorem ascii_injective : Function.Injective asciiOf := by
  intro b c same
  have codes := congrArg Char.toNat same
  rw [ascii_code, ascii_code] at codes
  exact UInt8.toNat_inj.mp codes

theorem ascii_byte (b : UInt8) (single : b < 0x80) : isAscii (asciiOf b) = true := by
  rw [isAscii, ascii_code, decide_eq_true_eq]
  exact UInt8.lt_iff_toNat_lt.mp single

theorem ascii_kept (bytes : List UInt8) (s : Text) (reads : Reads bytes s) :
    s.filter isAscii = (bytes.filter (· < 0x80)).map asciiOf := by
  induction reads with
  | nil => rfl
  | cons front bytes c s one _ ih =>
      cases one with
      | ascii b single =>
          rw [List.filter_cons_of_pos (ascii_byte b single), ih, List.singleton_append,
            List.filter_cons_of_pos (by simpa using single), List.map_cons]
      | other _ _ _ all other =>
          have none : front.filter (· < 0x80) = [] := by
            simpa using all
          rw [List.filter_cons_of_neg (by simp [other]), ih, List.filter_append, none, List.nil_append]

theorem reads_nil_iff (bytes : List UInt8) (s : Text) (reads : Reads bytes s) : bytes = [] ↔ s = [] := by
  cases reads with
  | nil => exact iff_of_true rfl rfl
  | cons front bytes c s one =>
      cases one with
      | ascii => simp
      | other _ _ nonempty => simp [nonempty]

-- An ASCII character ends the text exactly if its byte ends the bytes.
theorem last_kept (bytes : List UInt8) (s : Text) (reads : Reads bytes s) (b : UInt8) (single : b < 0x80) :
    s.getLast? = some (asciiOf b) ↔ bytes.getLast? = some b := by
  induction reads with
  | nil => simp
  | cons front bytes c s one rest ih =>
      by_cases more : s = []
      · rw [more, (reads_nil_iff bytes s rest).mpr more, List.append_nil, List.getLast?_singleton, Option.some.injEq]
        cases one with
        | ascii d =>
            rw [List.getLast?_singleton, Option.some.injEq]
            exact ascii_injective.eq_iff
        | other _ _ nonempty all other =>
            constructor
            · rintro rfl
              rw [ascii_byte b single] at other
              cases other
            · intro last
              exact absurd single (UInt8.not_lt.mpr (all b (List.mem_of_getLast? last)))
      · have some := mt (reads_nil_iff bytes s rest).mp more
        rw [List.getLast?_cons_of_ne_nil more, List.getLast?_append_of_ne_nil _ some]
        exact ih

-- Whether the last line of a text lacks its end is for the rest of the text to say, if there is any.
theorem unended_cons (c : Char) (s : Text) (more : s ≠ []) :
    c :: s ≠ [] ∧ (c :: s).getLast? ≠ some '\n' ↔ s ≠ [] ∧ s.getLast? ≠ some '\n' := by
  rw [List.getLast?_cons_of_ne_nil more]
  simp [more]

theorem lines_count (s : Text) :
    (lines s).length = s.count '\n' + if s ≠ [] ∧ s.getLast? ≠ some '\n' then 1 else 0 := by
  induction s using lines.induct with
  | case1 => rfl
  | case2 s ih =>
      rw [lines, List.length_cons, ih, List.count_cons_self]
      by_cases more : s = []
      · subst more
        rfl
      · simp only [unended_cons '\n' s more]
        omega
  | case3 s ih =>
      rw [lines, List.length_cons, ih, List.count_cons_of_ne (by decide), List.count_cons_self]
      by_cases more : s = []
      · subst more
        rfl
      · simp only [unended_cons '\r' _ (List.cons_ne_nil '\n' s), unended_cons '\n' s more]
        omega
  | case4 c s plain noEnd last ih =>
      obtain rfl := (lines_nil_iff s).mp last
      rw [lines.eq_4 c [] plain noEnd, last]
      have other : c ≠ '\n' := plain
      simp [other]
  | case5 c s plain noEnd l ls behind ih =>
      have more : s ≠ [] := mt (lines_nil_iff s).mpr (by simp [behind])
      have same : ((c :: l) :: ls).length = (lines s).length := by rw [behind]; rfl
      rw [lines.eq_4 c s plain noEnd, behind]
      dsimp only
      rw [same, ih, List.count_cons_of_ne plain]
      simp only [unended_cons c s more]

theorem line_ends_kept (bytes : List UInt8) : (decode bytes).count '\n' = bytes.count 0x0A := by
  have ascii := ascii_kept bytes (decode bytes) (decode_reads bytes)
  calc (decode bytes).count '\n'
      = ((decode bytes).filter isAscii).count '\n' := (List.count_filter (by decide)).symm
    _ = ((bytes.filter (· < 0x80)).map asciiOf).count (asciiOf 0x0A) := by rw [ascii]; rfl
    _ = (bytes.filter (· < 0x80)).count 0x0A := List.count_map_of_injective _ _ ascii_injective _
    _ = bytes.count 0x0A := List.count_filter (by decide)

theorem lines_decoded (bytes : List UInt8) :
    (lines (decode bytes)).length =
      bytes.count 0x0A + if bytes ≠ [] ∧ bytes.getLast? ≠ some 0x0A then 1 else 0 := by
  have reads := decode_reads bytes
  have nonempty := reads_nil_iff bytes _ reads
  have last := last_kept bytes _ reads 0x0A (by decide)
  have feed : asciiOf 0x0A = '\n' := rfl
  rw [feed] at last
  rw [lines_count, line_ends_kept]
  simp only [ne_eq, nonempty, last]

end Text

namespace SourceFile

/-- The lines of a source are those that the line feeds among its bytes make, and the ASCII characters of
its text are its ASCII bytes, in order, whatever else the bytes are. A text stored as bytes is read
back, so what was read of any bytes stays as it is. -/
theorem decoding_keeps_lines (source : SourceFile) :
    source.totalLines =
        source.bytes.count 0x0A + (if source.bytes ≠ [] ∧ source.bytes.getLast? ≠ some 0x0A then 1 else 0) ∧
      source.text.filter Text.isAscii = (source.bytes.filter (· < 0x80)).map Text.asciiOf ∧
      (∀ s, (ofText s).text = s) ∧ (ofText source.text).text = source.text := by
  have stored : ∀ s, (ofText s).text = s := Text.decode_encode
  refine ⟨Text.lines_decoded source.bytes, ?_, stored, stored source.text⟩
  exact Text.ascii_kept source.bytes source.text (Text.decode_reads source.bytes)

-- Two bytes of a character that is not completed, and one that begins none.
example : (ofBytes [0x66, 0xE2, 0x82, 0x0A, 0xFF]).text = "f\ufffd\n\ufffd".toList := by decide

end SourceFile

end OrderOfGrowth
