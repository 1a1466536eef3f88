import OrderOfGrowth.Proofs.Markup.Highlight
import OrderOfGrowth.Proofs.Scan.Definitions
import OrderOfGrowth.Proofs.Text.Split

/-!
Spans in highlighted texts. Escaped content has no angle, so every span in a markup is that of a styled piece
(`span_is_piece`), and what stands outside of all spans is the text of the other pieces (`outside_render`).
-/

set_option autoImplicit false

namespace OrderOfGrowth.Markup

open Scan (longest_run_unique)

-- A tag for a style, without its angle.
theorem open_tag_angled (style : Style) : ∃ tail, Piece.openTag style = '<' :: 's' :: tail ∧ '<' ∉ tail := by
  refine ⟨_, rfl, ?_⟩
  cases style <;> decide

theorem open_tag_injective (style other : Style) (same : Piece.openTag style = Piece.openTag other) :
    style = other := by
  have named : style.name = other.name := List.append_cancel_left (List.append_cancel_right same)
  cases style <;> cases other <;> first | rfl | exact absurd named (by decide)

theorem close_tag_angled (rest : Text) : Piece.closeTag ++ rest = '<' :: ("/span>".toList ++ rest) :=
  rfl

theorem close_tag_stops (rest : Text) : ∀ c ∈ (Piece.closeTag ++ rest).head?, (c != '<') = false := by
  simp [close_tag_angled]

theorem render_unstyled (text : Text) (pieces : List Piece) :
    render (⟨none, text⟩ :: pieces) = escapeContent text ++ render pieces :=
  rfl

theorem render_styled (style : Style) (text : Text) (pieces : List Piece) :
    render (⟨some style, text⟩ :: pieces) =
      Piece.openTag style ++ (escapeContent text ++ (Piece.closeTag ++ render pieces)) := by
  simp [render, Piece.render]

section Spans

variable (first style : Style) (content shown left rest : Text) (own : '<' ∉ content)

include own

-- Two spans at one place are one.
theorem span_unique (plain : '<' ∉ shown)
    (same : Piece.openTag first ++ (content ++ (Piece.closeTag ++ left)) =
      Piece.openTag style ++ (shown ++ (Piece.closeTag ++ rest))) :
    first = style ∧ content = shown ∧ left = rest := by
  have front : Piece.openTag style <+: Piece.openTag first ++ _ := ⟨_, same.symm⟩
  have sameTag := tag_unique _ _ _ (open_tag_is_tag first) (open_tag_is_tag style) (List.prefix_append _ _) front
  obtain rfl := open_tag_injective first style sameTag
  have behind := List.append_cancel_left same
  obtain rfl := longest_run_unique (· != '<') content shown _ _ ((Pattern.all_other_iff '<' _).mpr own)
    (close_tag_stops _) ((Pattern.all_other_iff '<' _).mpr plain) (close_tag_stops _) behind
  exact ⟨rfl, rfl, List.append_cancel_left (List.append_cancel_left behind)⟩

-- A span that does not start with another one starts behind it, so behind the angle of its closing tag.
theorem span_behind (c : Char) (before : Text)
    (same : Piece.openTag first ++ (content ++ (Piece.closeTag ++ left)) =
      c :: before ++ (Piece.openTag style ++ rest)) :
    ∃ later, c :: before = Piece.openTag first ++ (content ++ (Piece.closeTag ++ later)) ∧
      left = later ++ (Piece.openTag style ++ rest) := by
  obtain ⟨tail, tag, -⟩ := open_tag_angled style
  obtain ⟨firstTail, firstTag, firstPlain⟩ := open_tag_angled first
  have inside : '<' ∉ 's' :: (firstTail ++ content) := by simp [firstPlain, own]
  rw [firstTag, tag, close_tag_angled, List.cons_append, List.cons_append, List.cons_append] at same
  obtain ⟨rfl, shifted⟩ := List.cons.inj same
  rw [← List.cons_append, ← List.append_assoc, List.cons_append] at shifted
  obtain ⟨middle, rfl, behind⟩ := Text.cut_behind '<' _ _ before _ inside shifted
  cases middle with
  | nil => cases behind
  | cons d middle =>
      obtain ⟨rfl, further⟩ := List.cons.inj behind
      obtain ⟨later, rfl, behindAngle⟩ := Text.cut_behind '<' "/span>".toList _ middle _ (by decide) further
      refine ⟨later, ?_, ?_⟩
      · rw [firstTag, close_tag_angled]
        simp
      · rw [behindAngle, tag]
        rfl

end Spans

-- Every span in a markup is that of a piece.
theorem span_is_piece (pieces : List Piece) (style : Style) (before shown rest : Text) (plain : '<' ∉ shown)
    (same : render pieces = before ++ (Piece.openTag style ++ (shown ++ (Piece.closeTag ++ rest)))) :
    ∃ front text back, pieces = front ++ ⟨some style, text⟩ :: back ∧ escapeContent text = shown ∧
      render front = before ∧ render back = rest := by
  induction pieces generalizing before with
  | nil =>
      obtain ⟨tail, tag, -⟩ := open_tag_angled style
      simp [render, tag] at same
  | cons piece pieces ih =>
      obtain ⟨own, text⟩ := piece
      have content := (escape_content_escaped text).noOpening
      cases own with
      | none =>
          obtain ⟨tail, tag, -⟩ := open_tag_angled style
          rw [render_unstyled, tag] at same
          obtain ⟨middle, rfl, behind⟩ := Text.cut_behind '<' _ _ before _ content same
          obtain ⟨front, inner, back, rfl, shownIn, ahead, left⟩ := ih middle (by rw [behind, tag]; rfl)
          refine ⟨⟨none, text⟩ :: front, inner, back, rfl, shownIn, ?_, left⟩
          rw [render_unstyled, ahead]
      | some first =>
          rw [render_styled] at same
          cases before with
          | nil =>
              obtain ⟨rfl, contentEq, left⟩ := span_unique first style _ shown _ rest content plain same
              exact ⟨[], text, pieces, rfl, contentEq, rfl, left⟩
          | cons c before =>
              obtain ⟨later, start, left⟩ := span_behind first style _ _ _ content c before same
              obtain ⟨front, inner, back, rfl, shownIn, ahead, behindBack⟩ := ih later left
              refine ⟨⟨some first, text⟩ :: front, inner, back, rfl, shownIn, ?_, behindBack⟩
              rw [render_styled, ahead, start]

-- A closing tag without its angle, in front of what stands behind the span.
def behindSpan (part : Text) : Text :=
  (Text.after? "/span>".toList part).getD []

-- What stands outside of all spans in a markup: in front of its first tag, and behind each tag that closes one.
def outsideSpans (markup : Text) : Text :=
  match Text.splitOn '<' markup with
  | [] => []
  | first :: parts => first ++ parts.flatMap behindSpan

theorem outside_of_split (markup first : Text) (parts : List Text) (split : Text.splitOn '<' markup = first :: parts) :
    outsideSpans markup = first ++ parts.flatMap behindSpan := by
  rw [outsideSpans, split]

theorem outside_content (s rest : Text) (plain : '<' ∉ s) : outsideSpans (s ++ rest) = s ++ outsideSpans rest := by
  obtain ⟨first, parts, split⟩ := List.exists_cons_of_ne_nil (Text.split_on_ne_nil '<' rest)
  have joined := Text.split_on_front '<' s rest first parts plain split
  rw [outside_of_split rest first parts split, outside_of_split _ _ parts joined, List.append_assoc]

theorem outside_span (style : Style) (s rest : Text) (plain : '<' ∉ s) :
    outsideSpans (Piece.openTag style ++ (s ++ (Piece.closeTag ++ rest))) = outsideSpans rest := by
  obtain ⟨tail, tag, tailPlain⟩ := open_tag_angled style
  obtain ⟨first, parts, split⟩ := List.exists_cons_of_ne_nil (Text.split_on_ne_nil '<' rest)
  have closed := Text.split_on_front '<' "/span>".toList rest first parts (by decide) split
  have inside : '<' ∉ 's' :: (tail ++ s) := by simp [tailPlain, plain]
  have opened : behindSpan ('s' :: (tail ++ s)) = [] := rfl
  have behind : behindSpan ("/span>".toList ++ first) = first := by
    rw [behindSpan, Text.after_append, Option.getD_some]
  have parted : Text.splitOn '<' (Piece.openTag style ++ (s ++ (Piece.closeTag ++ rest))) =
      [] :: ('s' :: (tail ++ s)) :: ("/span>".toList ++ first) :: parts := by
    calc Text.splitOn '<' (Piece.openTag style ++ (s ++ (Piece.closeTag ++ rest)))
        = Text.splitOn '<' ([] ++ '<' :: ('s' :: (tail ++ s) ++ '<' :: ("/span>".toList ++ rest))) := by
          rw [tag, close_tag_angled]
          simp
      _ = _ := by
          rw [Text.split_on_part '<' [] _ List.not_mem_nil, Text.split_on_part '<' _ _ inside, closed]
  rw [outside_of_split _ _ _ parted, outside_of_split rest first parts split, List.flatMap_cons, List.flatMap_cons,
    opened, behind, List.nil_append, List.nil_append]

theorem outside_render (pieces : List Piece) :
    outsideSpans (render pieces) = escapeContent ((pieces.filter (·.style.isNone)).flatMap Piece.text) := by
  induction pieces with
  | nil => rfl
  | cons piece pieces ih =>
      obtain ⟨style, text⟩ := piece
      have content := (escape_content_escaped text).noOpening
      cases style with
      | none =>
          rw [render_unstyled, outside_content _ _ content, ih, ← escape_content_append]
          rfl
      | some style =>
          rw [render_styled, outside_span style _ _ content, ih]
          rfl

-- A piece with a place of the text inside.
def PieceAt (pieces : List Piece) (position : Nat) (piece : Piece) : Prop :=
  ∃ front back, pieces = front ++ piece :: back ∧ (front.flatMap Piece.text).length ≤ position ∧
    position < (front.flatMap Piece.text).length + piece.text.length

theorem piece_at_unique (pieces : List Piece) (position : Nat) (piece other : Piece)
    (here : PieceAt pieces position piece) (alsoHere : PieceAt pieces position other) : piece = other := by
  obtain ⟨front, back, rfl, starts, stops⟩ := here
  obtain ⟨ahead, behind, same, early, late⟩ := alsoHere
  rcases List.append_eq_append_iff.mp same with ⟨more, rfl, split⟩ | ⟨more, rfl, split⟩
  · cases more with
    | nil => exact (List.cons.inj split).1
    | cons passed more =>
        obtain ⟨rfl, -⟩ := List.cons.inj split
        simp only [List.flatMap_append, List.flatMap_cons, List.length_append] at early
        omega
  · cases more with
    | nil => exact (List.cons.inj split).1.symm
    | cons passed more =>
        obtain ⟨rfl, -⟩ := List.cons.inj split
        simp only [List.flatMap_append, List.flatMap_cons, List.length_append] at starts
        omega

theorem escape_letters (s : Text) (letters : ∀ c ∈ s, c.isAlpha = true) : escapeContent s = s := by
  induction s with
  | nil => rfl
  | cons c s ih =>
      rw [List.forall_mem_cons] at letters
      have other : ∀ mark : Char, mark.isAlpha = false → c ≠ mark := by
        rintro mark plain rfl
        rw [plain] at letters
        cases letters.1
      rw [escape_content_cons, ih letters.2, escapeChar, if_neg (other '&' rfl), if_neg (other '<' rfl),
        if_neg (other '>' rfl), List.singleton_append]

end OrderOfGrowth.Markup
