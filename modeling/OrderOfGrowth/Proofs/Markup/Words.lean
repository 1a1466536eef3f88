import OrderOfGrowth.Proofs.Markup.Comments
import OrderOfGrowth.Proofs.Scan.Definitions

/-!
Words and signs in tokens. The way to take a keyword is to take a whole word (`keyword_way_iff`), so where the
search for tokens comes to a keyword that is a whole word, it is the next token (`keyword_first`). A token that
goes on into such a word from in front of it goes on to its end (`crossing_covers`).
-/

set_option autoImplicit false

namespace OrderOfGrowth

namespace Pattern

-- Patterns that never accept the empty text, as far as their parts show it.
def takesSome : Pattern → Bool
  | char _ => true
  | seq first second => takesSome first || takesSome second
  | alt left right => takesSome left && takesSome right
  | _ => false

theorem takes_some_nonempty (pattern : Pattern) (w : Text) (takes : takesSome pattern = true)
    (accepted : Accepts pattern w) : w ≠ [] := by
  induction pattern generalizing w with
  | char test =>
      obtain ⟨c, -, rfl⟩ := accepted
      exact List.cons_ne_nil c []
  | seq first second ihFirst ihSecond =>
      obtain ⟨u, v, firstAccepts, secondAccepts, rfl⟩ := accepted
      rcases (Bool.or_eq_true _ _).mp takes with some | some
      · exact List.append_ne_nil_of_left_ne_nil (ihFirst u some firstAccepts) v
      · exact List.append_ne_nil_of_right_ne_nil u (ihSecond v some secondAccepts)
  | alt left right ihLeft ihRight =>
      obtain ⟨ofLeft, ofRight⟩ := (Bool.and_eq_true _ _).mp takes
      cases accepted with
      | inl accepted => exact ihLeft w ofLeft accepted
      | inr accepted => exact ihRight w ofRight accepted
  | empty => cases takes
  | run test => cases takes
  | shortRun test => cases takes
  | many body => cases takes

-- The preferred way through two patterns ends with the preferred way of the second one.
theorem seq_way (first second : Pattern) (s rest : Text) (way : ((seq first second).ways s).head? = some rest) :
    ∃ middle, (second.ways middle).head? = some rest := by
  rw [ways, List.head?_flatMap] at way
  obtain ⟨middle, -, found⟩ := List.exists_of_findSome?_eq_some way
  exact ⟨middle, found⟩

theorem ways_single (part : Pattern) (s : Text) : (sequence [part]).ways s = part.ways s := by
  have split : sequence [part] = seq part empty := rfl
  rw [split, ways]
  exact List.flatMap_singleton' (part.ways s)

theorem some_run_stops (test : Char → Bool) (s rest : Text) (way : ((someRun test).ways s).head? = some rest) :
    ∀ c ∈ rest.head?, test c = false := by
  obtain ⟨middle, longest⟩ := seq_way (char test) (run test) s rest way
  have stops := List.head?_dropWhile_not test middle
  rw [ways, run_ways_head, Option.some.injEq] at longest
  intro c first
  rw [longest, Option.mem_def.mp first] at stops
  simpa using stops

end Pattern

namespace Markup

open Text (Found isNameChar isWordChar)
open Scan (longest_run_unique name_char_code not_inside)

-- A word with no more characters of words on either side.
structure WholeWord (before word behind : Text) : Prop where
  nonempty : word ≠ []
  inside : ∀ c ∈ word, isWordChar c = true
  left : ∀ c ∈ before.getLast?, isWordChar c = false
  right : ∀ c ∈ behind.head?, isWordChar c = false

theorem name_char_word (c : Char) (inName : isNameChar c = true) : isWordChar c = true := by
  have code := name_char_code c inName
  rw [isWordChar, if_pos (by omega), inName]

theorem letter_word (c : Char) (letter : c.isAlpha = true) : isWordChar c = true :=
  name_char_word c (by simp [isNameChar, Char.isAlphanum, letter])

theorem keyword_letters : ∀ word ∈ Token.keywords, word ≠ [] ∧ ∀ c ∈ word, c.isAlpha = true := by
  simp [Token.keywords]

theorem accepts_any_of (words : List Text) (w : Text) : (Token.anyOf words).Accepts w ↔ w ∈ words := by
  induction words with
  | nil => simp [Token.anyOf, Pattern.Accepts]
  | cons word words ih =>
      have split : Token.anyOf (word :: words) = .alt (.text word) (Token.anyOf words) := rfl
      rw [split, List.mem_cons, ← ih, ← Pattern.accepts_text]
      exact Iff.rfl

theorem edge_in_front (before : Option Char) (c : Char) (s : Text) (inWord : isWordChar c = true) :
    Token.isEdge before (c :: s) = true ↔ ∀ d ∈ before, isWordChar d = false := by
  cases before <;> simp [Token.isEdge, inWord]

theorem edge_behind (c : Char) (rest : Text) (inWord : isWordChar c = true) :
    Token.isEdge (some c) rest = true ↔ ∀ d ∈ rest.head?, isWordChar d = false := by
  cases rest <;> simp [Token.isEdge, inWord]

-- Both edges of a word in a text are where no character of words is next to it.
theorem edges_iff (before word behind : Text) (nonempty : word ≠ []) (inside : ∀ c ∈ word, isWordChar c = true) :
    (Token.isEdge before.getLast? (word ++ behind) = true ∧
        Token.isEdge (Token.lastBefore before.getLast? (word ++ behind) behind) behind = true) ↔
      WholeWord before word behind := by
  have last : Token.lastBefore before.getLast? (word ++ behind) behind = some (word.getLast nonempty) := by
    simp [Token.lastBefore, List.getLast?_eq_some_getLast nonempty]
  rw [last, edge_behind _ behind (inside _ (List.getLast_mem nonempty))]
  cases word with
  | nil => exact absurd rfl nonempty
  | cons c word =>
      rw [List.cons_append, edge_in_front _ c _ (inside c List.mem_cons_self)]
      exact ⟨fun edges => ⟨nonempty, inside, edges.1, edges.2⟩, fun whole => ⟨whole.left, whole.right⟩⟩

theorem keyword_way_iff (before s rest : Text) :
    rest ∈ Token.ways .keyword before.getLast? s ↔
      ∃ word ∈ Token.keywords, s = word ++ rest ∧ WholeWord before word rest := by
  have bounded : Token.isBounded .keyword = true := rfl
  rw [Token.ways, if_pos bounded, List.mem_ite_nil_right, List.mem_filter, Token.pattern, Pattern.mem_ways]
  constructor
  · intro way
    obtain ⟨edge, ⟨word, accepted, rfl⟩, edgeBehind⟩ := way
    have member := (accepts_any_of _ word).mp accepted
    obtain ⟨nonempty, letters⟩ := keyword_letters word member
    refine ⟨word, member, rfl, (edges_iff before word rest nonempty ?_).mp ⟨edge, edgeBehind⟩⟩
    exact fun c inside => letter_word c (letters c inside)
  · intro shape
    obtain ⟨word, member, rfl, whole⟩ := shape
    obtain ⟨edge, edgeBehind⟩ := (edges_iff before word rest whole.nonempty whole.inside).mpr whole
    exact ⟨edge, ⟨word, (accepts_any_of _ word).mpr member, rfl⟩, edgeBehind⟩

-- The kinds of tokens that can have a whole word inside and show it as part of something else.
def covers : List TokenKind :=
  [.comment, .string, .directive]

theorem quoted_ends (quote : Char) (w : Text) (accepted : (Token.quoted quote).Accepts w) :
    w.head? = some quote ∧ w.getLast? = some quote := by
  obtain ⟨u, _, opens, ⟨body, _, -, ⟨v, _, closes, rfl, rfl⟩, rfl⟩, rfl⟩ := accepted
  rw [(Pattern.accepts_one quote u).mp opens, (Pattern.accepts_one quote v).mp closes]
  exact ⟨rfl, by simp [List.getLast?_cons]⟩

theorem cover_starts (kind : TokenKind) (covering : kind ∈ covers) (w : Text)
    (accepted : (Token.pattern kind).Accepts w) : ∃ c ∈ w.head?, isWordChar c = false := by
  simp only [covers, List.mem_cons, List.not_mem_nil, or_false] at covering
  rcases covering with rfl | rfl | rfl
  · refine ⟨'/', ?_, by decide⟩
    rcases accepted with ⟨u, v, opens, -, rfl⟩ | ⟨u, v, opens, -, rfl⟩
    · rw [(Pattern.accepts_text _ u).mp opens]
      rfl
    · rw [(Pattern.accepts_text _ u).mp opens]
      rfl
  · rcases accepted with double | single
    · exact ⟨'"', (quoted_ends '"' w double).1, by decide⟩
    · exact ⟨'\'', (quoted_ends '\'' w single).1, by decide⟩
  · obtain ⟨u, v, opens, -, rfl⟩ := accepted
    rw [(Pattern.accepts_one '#' u).mp opens]
    exact ⟨'#', rfl, by decide⟩

theorem comment_found (before : Option Char) (w rest : Text)
    (found : Token.first? before (w ++ rest) = some (.comment, rest)) : IsComment w rest := by
  obtain ⟨taken, accepted, same⟩ := first_accepted before _ .comment rest found
  obtain rfl := List.append_cancel_right same
  have opens : OpensComment (w ++ rest) := by
    rcases accepted with ⟨u, v, opens, -, rfl⟩ | ⟨u, _, opens, ⟨body, _, -, ⟨v, _, closes, rfl, rfl⟩, rfl⟩, rfl⟩
    · rw [(Pattern.accepts_text _ u).mp opens, List.append_assoc]
      exact .inl (List.prefix_append _ _)
    · rw [(Pattern.accepts_text _ u).mp opens, (Pattern.accepts_text _ v).mp closes]
      exact .inr ⟨body ++ (closeMark ++ rest), by simp [openMark, closeMark], body, rest, by simp⟩
  obtain ⟨comment, left, split, isComment⟩ := comment_opened _ opens
  have first := comment_first before comment left isComment
  rw [← split, found] at first
  obtain rfl : rest = left := congrArg Prod.snd (Option.some.inj first)
  rwa [List.append_cancel_right split]

-- No such token ends inside a word: there is no letter at its end, or none behind it.
theorem cover_ends (kind : TokenKind) (covering : kind ∈ covers) (before : Option Char) (w rest : Text)
    (found : Token.first? before (w ++ rest) = some (kind, rest)) :
    (∃ c ∈ w.getLast?, c.isAlpha = false) ∨ ∀ c ∈ rest.head?, c.isAlpha = false := by
  simp only [covers, List.mem_cons, List.not_mem_nil, or_false] at covering
  rcases covering with rfl | rfl | rfl
  · cases comment_found before w rest found with
    | line body rest single ends =>
        right
        intro c first
        rw [ends c first]
        rfl
    | block body rest first => exact .inl ⟨'/', by simp [closeMark], rfl⟩
  · left
    obtain ⟨taken, accepted, same⟩ := first_accepted before _ .string rest found
    obtain rfl := List.append_cancel_right same
    rcases accepted with double | single
    · exact ⟨'"', (quoted_ends '"' w double).2, rfl⟩
    · exact ⟨'\'', (quoted_ends '\'' w single).2, rfl⟩
  · right
    have way : (Token.directive.ways (w ++ rest)).head? = some rest := first_way before _ .directive rest found
    obtain ⟨_, behindMark⟩ := Pattern.seq_way (.one '#') (.sequence [.white, .someRun Char.isAlpha]) _ rest way
    obtain ⟨_, behindGap⟩ := Pattern.seq_way .white (.sequence [.someRun Char.isAlpha]) _ rest behindMark
    rw [Pattern.ways_single] at behindGap
    exact Pattern.some_run_stops Char.isAlpha _ rest behindGap

-- The characters of operators and of punctuation.
def signs : List Char :=
  "-+*/%=<>!&|^~?:".toList ++ "\x7b\x7d[]();,.".toList

theorem sign_iff (c : Char) : c ∈ signs ↔ Token.isOperatorChar c = true ∨ Token.isPunctuation c = true :=
  List.mem_append.trans (or_congr List.contains_iff_mem.symm List.contains_iff_mem.symm)

theorem sign_not_word (c : Char) (sign : c ∈ signs) : isWordChar c = false := by
  have outside : signs.all (!isWordChar ·) = true := by
    decide +kernel
  simpa using List.all_eq_true.mp outside c sign

theorem sign_not_letter (c : Char) (sign : c ∈ signs) : c.isAlpha = false := by
  rw [Bool.eq_false_iff]
  intro letter
  have inWord := letter_word c letter
  rw [sign_not_word c sign] at inWord
  cases inWord

theorem digit_not_letter (c : Char) (digit : c.isDigit = true) : c.isAlpha = false := by
  simp only [Char.isDigit, Char.isAlpha, Char.isUpper, Char.isLower, Bool.and_eq_true, Bool.or_eq_false_iff,
    Bool.and_eq_false_iff, decide_eq_true_eq, decide_eq_false_iff_not] at digit ⊢
  change 48 ≤ c.toNat ∧ c.toNat ≤ 57 at digit
  change ¬ (65 ≤ c.toNat ∧ c.toNat ≤ 90) ∧ (¬ 97 ≤ c.toNat ∨ ¬ c.toNat ≤ 122)
  omega

theorem hex_in_name (c : Char) (hex : (Text.hexValue? c).isSome = true) : isNameChar c = true := by
  simp only [isNameChar, Char.isAlphanum, Char.isAlpha, Char.isUpper, Char.isLower, Char.isDigit,
    Bool.or_eq_true, Bool.and_eq_true, decide_eq_true_eq, ge_iff_le]
  left
  unfold Text.hexValue? at hex
  split at hex
  next digit => exact .inr digit
  next => 
    split at hex
    next lower => exact .inl (.inr ⟨lower.1, Nat.le_trans lower.2 (by decide)⟩)
    next =>
      split at hex
      next upper => exact .inl (.inl ⟨upper.1, Nat.le_trans upper.2 (by decide)⟩)
      next => cases hex

-- A number has no point, or no letter.
theorem number_cases (w : Text) (accepted : Token.number.Accepts w) :
    (∀ c ∈ w, isNameChar c = true) ∨ ∀ c ∈ w, c.isAlpha = false := by
  rcases accepted with ⟨zero, _, isZero, ⟨_, _, ⟨x, isX, rfl⟩, ⟨digits, _, hex, rfl, rfl⟩, rfl⟩, rfl⟩ |
    ⟨whole, _, digits, ⟨fraction, _, part, rfl, rfl⟩, rfl⟩
  · have xInName : isNameChar x = true := by
      rcases (Bool.or_eq_true _ _).mp isX with lower | upper
      · exact beq_iff_eq.mp lower ▸ rfl
      · exact beq_iff_eq.mp upper ▸ rfl
    rw [(Pattern.accepts_one '0' zero).mp isZero]
    left
    intro c member
    simp only [List.append_nil, List.mem_append, List.mem_singleton] at member
    rcases member with rfl | rfl | inDigits
    · rfl
    · exact xInName
    · exact hex_in_name c (((Pattern.accepts_some_run _ digits).mp hex).2 c inDigits)
  · right
    have wholeDigits := ((Pattern.accepts_some_run _ whole).mp digits).2
    have fractionPlain : ∀ c ∈ fraction, c.isAlpha = false := by
      rcases part with ⟨point, _, isPoint, ⟨more, _, moreDigits, rfl, rfl⟩, rfl⟩ | none
      · rw [(Pattern.accepts_one '.' point).mp isPoint]
        simp only [List.append_nil, List.singleton_append, List.forall_mem_cons]
        refine ⟨rfl, fun c member => ?_⟩
        exact digit_not_letter c (((Pattern.accepts_some_run _ more).mp moreDigits).2 c member)
      · simp [(Pattern.accepts_empty fraction).mp none]
    intro c member
    simp only [List.append_nil, List.mem_append] at member
    rcases member with inWhole | inFraction
    · exact digit_not_letter c (wholeDigits c inWhole)
    · exact fractionPlain c inFraction

theorem identifier_word (w : Text) (accepted : Token.identifier.Accepts w) : ∀ c ∈ w, isWordChar c = true := by
  obtain ⟨_, v, ⟨c, starts, rfl⟩, inside, rfl⟩ := accepted
  intro d member
  apply name_char_word
  rcases List.mem_append.mp member with first | later
  · rw [List.mem_singleton.mp first, isNameChar, Char.isAlphanum]
    rcases (Bool.or_eq_true _ _).mp starts with letter | underscore
    · rw [letter, Bool.true_or, Bool.true_or]
    · rw [underscore, Bool.or_true]
  · exact inside d later

-- A token of another kind has only characters of words in it, or no letter.
theorem plain_kinds (kind : TokenKind) (plain : kind ∉ covers) (w : Text)
    (accepted : (Token.pattern kind).Accepts w) :
    (∀ c ∈ w, isWordChar c = true) ∨ ∀ c ∈ w, c.isAlpha = false := by
  cases kind with
  | comment => exact absurd (by decide) plain
  | string => exact absurd (by decide) plain
  | directive => exact absurd (by decide) plain
  | keyword =>
      have letters := (keyword_letters w ((accepts_any_of _ w).mp accepted)).2
      exact .inl fun c member => letter_word c (letters c member)
  | number => exact (number_cases w accepted).imp_left fun inName c member => name_char_word c (inName c member)
  | identifier => exact .inl (identifier_word w accepted)
  | operator =>
      have operators := ((Pattern.accepts_some_run _ w).mp accepted).2
      exact .inr fun c member => sign_not_letter c ((sign_iff c).mpr (.inl (operators c member)))
  | punctuation =>
      obtain ⟨c, punctuation, rfl⟩ := accepted
      refine .inr fun d member => sign_not_letter d ((sign_iff d).mpr (.inr ?_))
      rwa [List.mem_singleton.mp member]

-- A token that goes on into a word of letters from in front of it has the word inside.
theorem crossing_covers (before word behind : Text) (letters : ∀ c ∈ word, c.isAlpha = true)
    (whole : WholeWord before word behind) (token : Found TokenKind)
    (member : token ∈ Token.all (before ++ (word ++ behind))) (crosses : token.Crosses before.length) :
    token.kind ∈ covers ∧ before.length + word.length ≤ token.stop := by
  obtain ⟨ahead, front, within, rest, rfl, split, some, more, -, stops, accepted, found⟩ :=
    crossing_stands before _ token member crosses
  rw [← List.append_assoc] at found
  have covering : token.kind ∈ covers := by
    by_contra plain
    rcases plain_kinds token.kind plain _ accepted with allWord | noLetter
    · have edge := whole.left (front.getLast some) (by simp [List.getLast?_eq_some_getLast some])
      exact not_inside isWordChar _ _ allWord edge (List.mem_append_left _ (List.getLast_mem some))
    · have starts : (word ++ behind).head? = within.head? := by
        rw [split, List.head?_append_of_ne_nil _ more]
      rw [List.head?_append_of_ne_nil _ whole.nonempty, List.head?_eq_some_head whole.nonempty] at starts
      have inToken := List.mem_append_right front (List.mem_of_head? starts.symm)
      exact not_inside Char.isAlpha word _ letters (noLetter _ inToken) (List.head_mem whole.nonempty)
  refine ⟨covering, ?_⟩
  rw [stops]
  by_contra short
  rcases List.append_eq_append_iff.mp split with ⟨further, rfl, -⟩ | ⟨left, rfl, rfl⟩
  · simp only [List.length_append] at short
    omega
  · have cut : left ≠ [] := by
      rintro rfl
      simp at short
    rcases cover_ends token.kind covering _ (front ++ within) _ found with ⟨c, last, noLetter⟩ | noLetter
    · rw [List.getLast?_append, List.getLast?_eq_some_getLast more, Option.some_or] at last
      obtain rfl := Option.mem_some.mp last
      exact not_inside Char.isAlpha _ _ letters noLetter (List.mem_append_left _ (List.getLast_mem more))
    · have edge := noLetter (left.head cut) (by simp [List.head?_append, List.head?_eq_some_head cut])
      exact not_inside Char.isAlpha _ _ letters edge (List.mem_append_right _ (List.head_mem cut))

-- A keyword that is a whole word is the only one there is to take.
theorem keyword_first (before word behind : Text) (member : word ∈ Token.keywords)
    (whole : WholeWord before word behind) :
    Token.first? before.getLast? (word ++ behind) = some (.keyword, behind) := by
  have none : ∀ kind ∈ covers, Token.ways kind before.getLast? (word ++ behind) = [] := by
    intro kind covering
    rw [List.eq_nil_iff_forall_not_mem]
    intro rest way
    obtain ⟨w, accepted, split⟩ := ways_accepted kind _ _ rest way
    obtain ⟨c, starts, outside⟩ := cover_starts kind covering w accepted
    have first : c ∈ (word ++ behind).head? := by
      rw [split, List.head?_append]
      simp [Option.mem_def.mp starts]
    rw [List.head?_append_of_ne_nil _ whole.nonempty] at first
    exact not_inside isWordChar word c whole.inside outside (List.mem_of_head? first)
  have only : ∀ rest ∈ Token.ways .keyword before.getLast? (word ++ behind), rest = behind := by
    intro rest way
    obtain ⟨other, -, split, otherWhole⟩ := (keyword_way_iff before _ rest).mp way
    have same := longest_run_unique isWordChar word other behind rest whole.inside whole.right otherWhole.inside
      otherWhole.right split
    rw [same] at split
    exact (List.append_cancel_left split).symm
  have way := (keyword_way_iff before (word ++ behind) behind).mpr ⟨word, member, rfl, whole⟩
  have first : (Token.ways .keyword before.getLast? (word ++ behind)).head? = some behind := by
    cases ways : Token.ways .keyword before.getLast? (word ++ behind) with
    | nil =>
        rw [ways] at way
        cases way
    | cons rest others => rw [List.head?_cons, only rest (ways ▸ List.mem_cons_self)]
  simp [Token.first?, Token.kinds, none .comment (by decide), none .string (by decide), none .directive (by decide),
    first]

end Markup

end OrderOfGrowth
