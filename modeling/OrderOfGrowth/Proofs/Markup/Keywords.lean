import OrderOfGrowth.Proofs.Markup.Spans
import OrderOfGrowth.Proofs.Markup.Words

/-!
Keywords and operators in highlighted texts. Every styled piece is a token (`styled_piece`), and a keyword token is
a whole word of the text. Every operator and every mark of punctuation is inside some token (`sign_in_token`), so
none is left in a piece without style.
-/

set_option autoImplicit false

namespace OrderOfGrowth.Markup

open Text (Found isWordChar)
open Scan (not_inside)

-- A keyword is hidden in a token that has the whole of it inside.
def Hidden (before word behind : Text) : Prop :=
  ∃ token ∈ Token.all (before ++ (word ++ behind)), token.kind ∈ covers ∧ token.start ≤ before.length ∧
    before.length + word.length ≤ token.stop

instance (before word behind : Text) : Decidable (Hidden before word behind) :=
  inferInstanceAs (Decidable (∃ token ∈ Token.all (before ++ (word ++ behind)), token.kind ∈ covers ∧
    token.start ≤ before.length ∧ before.length + word.length ≤ token.stop))

theorem keyword_shown (language before word behind : Text) (known : Highlighter.knows language = true)
    (member : word ∈ Token.keywords) (whole : WholeWord before word behind) (bare : ¬ Hidden before word behind) :
    ShownAs .keyword language before word behind := by
  have first := keyword_first before word behind member whole
  refine token_shown .keyword .keyword language before word behind known rfl
    (next_token before word behind .keyword whole.nonempty first ?_)
  intro token tokenMember crosses
  obtain ⟨covering, ends⟩ :=
    crossing_covers before word behind (keyword_letters word member).2 whole token tokenMember crosses
  exact bare ⟨token, tokenMember, covering, Nat.le_of_lt crosses.1, ends⟩

-- A styled piece is a token.
theorem styled_piece (s : Text) (last : Nat) (tokens : List (Found TokenKind))
    (ordered : Text.InOrder s.length last tokens) (front back : List Piece) (style : Style) (shown : Text)
    (cut : piecesFrom s last tokens = front ++ ⟨some style, shown⟩ :: back) :
    ∃ token ∈ tokens, styleOf token.kind (s.drop token.stop) = some style ∧
      shown = slice s token.start token.stop ∧ token.start = last + (front.flatMap Piece.text).length := by
  induction tokens generalizing last front with
  | nil =>
      rw [piecesFrom] at cut
      cases front with
      | nil => cases (List.cons.inj cut).1
      | cons gap front => cases front <;> cases (List.cons.inj cut).2
  | cons token tokens ih =>
      obtain ⟨behind, forward, inside, later⟩ := ordered
      rw [piecesFrom] at cut
      cases front with
      | nil => cases (List.cons.inj cut).1
      | cons gap front =>
          obtain ⟨rfl, behindGap⟩ := List.cons.inj cut
          have gapLength : (slice s last token.start).length = token.start - last := by
            simp [slice]
            omega
          cases front with
          | nil =>
              obtain ⟨piece, -⟩ := List.cons.inj behindGap
              obtain ⟨styled, text⟩ := Piece.mk.inj piece
              refine ⟨token, List.mem_cons_self, styled, text.symm, ?_⟩
              simp only [List.flatMap_cons, List.flatMap_nil, List.append_nil, gapLength]
              omega
          | cons first front =>
              obtain ⟨rfl, behindToken⟩ := List.cons.inj behindGap
              obtain ⟨found, member, styled, text, starts⟩ := ih token.stop later front behindToken
              have tokenLength : (slice s token.start token.stop).length = token.stop - token.start := by
                simp [slice]
                omega
              refine ⟨found, List.mem_cons_of_mem _ member, styled, text, ?_⟩
              simp only [List.flatMap_cons, List.length_append, gapLength, tokenLength]
              omega

theorem style_keyword (kind : TokenKind) (rest : Text) (styled : styleOf kind rest = some .keyword) :
    kind = .keyword := by
  cases kind with
  | keyword => rfl
  | identifier =>
      rw [styleOf] at styled
      split at styled <;> cases styled
  | _ => cases styled

theorem keyword_piece (s : Text) (front back : List Piece) (shown : Text)
    (cut : pieces s = front ++ ⟨some .keyword, shown⟩ :: back) :
    shown ∈ Token.keywords ∧ WholeWord (front.flatMap Piece.text) shown (back.flatMap Piece.text) := by
  obtain ⟨token, member, styled, text, starts⟩ :=
    styled_piece s 0 (Token.all s) (Text.find_all_in_order Token.first? s) front back .keyword shown cut
  have kind := style_keyword token.kind _ styled
  obtain ⟨before, w, rest, split, -, tokenStarts, stops, -, found⟩ := token_stands s token member
  have parted := pieces_text s
  rw [cut, List.flatMap_append, List.flatMap_cons, split] at parted
  obtain ⟨rfl, parted⟩ := List.append_inj parted (by omega)
  have between : shown = w := by
    rw [text, split, tokenStarts, stops, slice_between]
  subst between
  obtain rfl : back.flatMap Piece.text = rest := by simpa using parted
  rw [kind] at found
  obtain ⟨word, listed, same, whole⟩ := (keyword_way_iff _ _ _).mp (List.mem_of_head? (first_way _ _ _ _ found))
  obtain rfl := List.append_cancel_right same
  exact ⟨listed, whole⟩

theorem token_takes_some (kind : TokenKind) : (Token.pattern kind).takesSome = true := by
  cases kind <;> rfl

theorem sign_found (before : Option Char) (c : Char) (rest : Text) (sign : c ∈ signs) :
    Token.first? before (c :: rest) ≠ none := by
  intro none
  have nowhere := fun kind member => List.findSome?_eq_none_iff.mp none kind member
  have unfit : ∀ kind ∈ Token.kinds, Token.isBounded kind = false → ¬ (Token.pattern kind).Fits (c :: rest) := by
    intro kind member free
    have absent := nowhere kind member
    rw [Option.map_eq_none_iff, List.head?_eq_none_iff, Token.ways, free] at absent
    exact (Pattern.ways_nil_iff _ _).mp absent
  rcases (sign_iff c).mp sign with operator | punctuation
  · refine unfit .operator (by decide) rfl ⟨[c], rest, ?_, rfl⟩
    exact (Pattern.accepts_some_run _ [c]).mpr ⟨List.cons_ne_nil c [], by simpa using operator⟩
  · exact unfit .punctuation (by decide) rfl ⟨[c], rest, ⟨c, punctuation, rfl⟩, rfl⟩

theorem sign_in_token (before : Text) (c : Char) (rest : Text) (sign : c ∈ signs) :
    ∃ token ∈ Token.all (before ++ c :: rest), token.start ≤ before.length ∧ before.length < token.stop := by
  by_cases crossed : ∃ token ∈ Token.all (before ++ c :: rest), token.Crosses before.length
  · obtain ⟨token, member, after, inside⟩ := crossed
    exact ⟨token, member, Nat.le_of_lt after, inside⟩
  · obtain ⟨⟨kind, left⟩, first⟩ := Option.ne_none_iff_exists'.mp (sign_found before.getLast? c rest sign)
    obtain ⟨w, accepted, split⟩ := first_accepted _ _ kind left first
    have some := Pattern.takes_some_nonempty _ w (token_takes_some kind) accepted
    rw [split] at first crossed ⊢
    refine ⟨_, next_token before w left kind some first ?_, Nat.le_refl _, ?_⟩
    · exact fun token member crosses => crossed ⟨token, member, crosses⟩
    · exact Nat.lt_add_of_pos_right (List.length_pos_iff.mpr some)

-- Where a token is said to be, a piece of its own stands.
theorem token_piece_at (s : Text) (token : Found TokenKind) (member : token ∈ Token.all s) (position : Nat)
    (starts : token.start ≤ position) (stops : position < token.stop) :
    ∃ w rest, PieceAt (pieces s) position ⟨styleOf token.kind rest, w⟩ ∧ (Token.pattern token.kind).Accepts w := by
  obtain ⟨before, w, rest, rfl, -, tokenStarts, tokenStops, accepted, -⟩ := token_stands s token member
  obtain ⟨kind, start, stop⟩ := token
  obtain rfl : start = before.length := tokenStarts
  obtain rfl : stop = before.length + w.length := tokenStops
  obtain ⟨front, back, read, rfl, -⟩ := token_is_piece before w rest kind member
  exact ⟨w, rest, ⟨front, back, read, starts, stops⟩, accepted⟩

theorem style_none (kind : TokenKind) (rest : Text) (unstyled : styleOf kind rest = none) : kind = .identifier := by
  cases kind with
  | identifier => rfl
  | _ => cases unstyled

theorem unstyled_without_signs (s : Text) (piece : Piece) (member : piece ∈ pieces s) (unstyled : piece.style = none) :
    ∀ sign ∈ signs, sign ∉ piece.text := by
  intro c sign inside
  obtain ⟨front, back, cut⟩ := List.append_of_mem member
  obtain ⟨u, v, text⟩ := List.append_of_mem inside
  have whole : s = (front.flatMap Piece.text ++ u) ++ c :: (v ++ back.flatMap Piece.text) := by
    rw [← pieces_text s, cut]
    simp [text]
  obtain ⟨token, tokenMember, starts, stops⟩ := sign_in_token _ c _ sign
  rw [← whole] at tokenMember
  obtain ⟨w, rest, tokenAt, accepted⟩ := token_piece_at s token tokenMember _ starts stops
  have pieceAt : PieceAt (pieces s) (front.flatMap Piece.text ++ u).length piece := by
    refine ⟨front, back, cut, ?_, ?_⟩
    · simp
    · simp [text]
  obtain rfl := piece_at_unique _ _ _ _ pieceAt tokenAt
  rw [style_none token.kind rest unstyled] at accepted
  exact not_inside isWordChar w c (identifier_word w accepted) (sign_not_word c sign) inside

theorem hidden_not_shown (language before word behind : Text) (known : Highlighter.knows language = true)
    (nonempty : word ≠ []) (hidden : Hidden before word behind) : ¬ ShownAs .keyword language before word behind := by
  intro shown
  obtain ⟨front, back, cut, rfl, -⟩ := shown
  rw [Highlighter.piecesOf, if_pos known] at cut
  obtain ⟨token, member, covering, starts, stops⟩ := hidden
  have some := List.length_pos_iff.mpr nonempty
  obtain ⟨w, rest, tokenAt, -⟩ := token_piece_at _ token member _ starts (by omega)
  have wordAt : PieceAt _ _ _ := ⟨front, back, cut, Nat.le_refl _, Nat.lt_add_of_pos_right some⟩
  have styled := congrArg Piece.style (piece_at_unique _ _ _ _ tokenAt wordAt)
  rw [style_keyword token.kind rest styled] at covering
  exact absurd covering (by decide)

/-- In a text highlighted as C every keyword span is a keyword that is a whole word of the text, every keyword
that is a whole word is such a span unless a comment, a literal or a directive has it inside, and no operator
and no punctuation stands outside of all spans. -/
theorem keywords_and_signs_styled (language s : Text) (known : Highlighter.knows language = true) :
    (∀ before shown rest, '<' ∉ shown →
        Highlighter.tokens.highlight language s =
          before ++ (Piece.openTag .keyword ++ (shown ++ (Piece.closeTag ++ rest))) →
        ∃ ahead behind, s = ahead ++ (shown ++ behind) ∧ shown ∈ Token.keywords ∧ WholeWord ahead shown behind ∧
          unescape (dropTags before) = ahead ∧ unescape (dropTags rest) = behind) ∧
      (∀ ahead word behind, s = ahead ++ (word ++ behind) → word ∈ Token.keywords → WholeWord ahead word behind →
        (ShownAs .keyword language ahead word behind ↔ ¬ Hidden ahead word behind)) ∧
      ∀ sign ∈ signs, sign ∉ unescape (outsideSpans (Highlighter.tokens.highlight language s)) := by
  have markup : Highlighter.tokens.highlight language s = render (pieces s) := by
    rw [Highlighter.highlight, Highlighter.piecesOf, if_pos known]
  refine ⟨?_, ?_, ?_⟩
  · intro before shown rest plain same
    obtain ⟨front, text, back, cut, content, rfl, rfl⟩ :=
      span_is_piece (pieces s) .keyword before shown rest plain (markup.symm.trans same)
    obtain ⟨member, whole⟩ := keyword_piece s front back text cut
    rw [escape_letters text (keyword_letters text member).2] at content
    subst content
    refine ⟨front.flatMap Piece.text, back.flatMap Piece.text, ?_, member, whole, ?_, ?_⟩
    · rw [← pieces_text s, cut, List.flatMap_append, List.flatMap_cons]
    · rw [drop_tags_render, unescape_escape]
    · rw [drop_tags_render, unescape_escape]
  · rintro ahead word behind - member whole
    constructor
    · exact fun shown hidden => hidden_not_shown language ahead word behind known whole.nonempty hidden shown
    · exact keyword_shown language ahead word behind known member whole
  · intro sign member inside
    rw [markup, outside_render, unescape_escape] at inside
    obtain ⟨piece, kept, here⟩ := List.mem_flatMap.mp inside
    obtain ⟨pieceMember, unstyled⟩ := List.mem_filter.mp kept
    exact unstyled_without_signs s piece pieceMember (Option.isNone_iff_eq_none.mp unstyled) sign member here

theorem do_behind_literal_shown :
    Highlighter.knows ['C'] = true ∧ "do".toList ∈ Token.keywords ∧
      WholeWord "do_(\"do\"); ".toList "do".toList "\x7b\x7d".toList ∧
      ShownAs .keyword ['C'] "do_(\"do\"); ".toList "do".toList "\x7b\x7d".toList := by
  have known : Highlighter.knows ['C'] = true := by decide
  have member : "do".toList ∈ Token.keywords := by decide
  have whole : WholeWord "do_(\"do\"); ".toList "do".toList "\x7b\x7d".toList :=
    ⟨by decide, fun c inside => letter_word c ((keyword_letters _ member).2 c inside), by rintro _ ⟨⟩; rfl,
      by rintro _ ⟨⟩; rfl⟩
  have bare : ¬ Hidden "do_(\"do\"); ".toList "do".toList "\x7b\x7d".toList := by decide +kernel
  exact ⟨known, member, whole, ((keywords_and_signs_styled ['C'] _ known).2.1 _ _ _ rfl member whole).mpr bare⟩

end OrderOfGrowth.Markup
