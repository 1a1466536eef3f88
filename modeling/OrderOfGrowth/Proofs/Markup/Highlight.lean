import OrderOfGrowth.Markup.Highlight
import OrderOfGrowth.Proofs.Markup.Escape
import OrderOfGrowth.Proofs.Text.Search

/-!
Highlighted texts. The pieces of a text join to the text (`pieces_text`), since tokens follow each
other in order. Without its tags the markup is the escaped text, and that reads back.
-/

set_option autoImplicit false

namespace OrderOfGrowth.Markup

def classes : List Text :=
  ["comment", "string", "macro", "keyword", "number", "function", "operator",
    "punctuation"].map String.toList

def spanTag (name : Text) : Text :=
  "<span class=\"token ".toList ++ name ++ "\">".toList

def endTag : Text :=
  "</span>".toList

inductive IsMarkup : Text → Prop
  | nil : IsMarkup []
  | content (s rest : Text) : IsEscaped s → IsMarkup rest → IsMarkup (s ++ rest)
  | span (name s rest : Text) : name ∈ classes → IsEscaped s → IsMarkup rest →
      IsMarkup (spanTag name ++ s ++ endTag ++ rest)

def tags : List Text :=
  endTag :: classes.map spanTag

def dropTags : Text → Text
  | [] => []
  | c :: s =>
    match tags.find? fun tag => tag.isPrefixOf (c :: s) with
    | some tag => dropTags (s.drop (tag.length - 1))
    | none => c :: dropTags s
termination_by s => s.length
decreasing_by
  · simp only [List.length_drop, List.length_cons]
    omega
  · simp

theorem style_named (style : Style) : style.name ∈ classes := by
  cases style <;> decide

theorem open_tag_is_tag (style : Style) : Piece.openTag style ∈ tags :=
  List.mem_cons_of_mem _ (List.mem_map_of_mem (style_named style))

theorem tags_begin : ∀ tag ∈ tags, tag.head? = some '<' := by
  decide

theorem tags_differ : ∀ tag ∈ tags, ∀ other ∈ tags, tag <+: other → tag = other := by
  decide

-- Two tags that begin one text are one tag: neither goes on where the other ends.
theorem tag_unique (tag other s : Text) (member : tag ∈ tags) (otherMember : other ∈ tags) (here : tag <+: s)
    (alsoHere : other <+: s) : tag = other := by
  rcases List.prefix_or_prefix_of_prefix here alsoHere with shorter | longer
  · exact tags_differ tag member other otherMember shorter
  · exact (tags_differ other otherMember tag member longer).symm

theorem drop_tags_plain (c : Char) (s : Text) (plain : c ≠ '<') :
    dropTags (c :: s) = c :: dropTags s := by
  have none : tags.find? (fun tag => tag.isPrefixOf (c :: s)) = none := by
    rw [List.find?_eq_none]
    intro tag member here
    have begins := tags_begin tag member
    cases tag with
    | nil => cases begins
    | cons d tag =>
        have same := (List.cons_prefix_cons.mp (List.isPrefixOf_iff_prefix.mp here)).1
        exact plain (same.symm.trans (Option.some.inj begins))
  rw [dropTags, none]

theorem drop_tags_tag (tag rest : Text) (member : tag ∈ tags) :
    dropTags (tag ++ rest) = dropTags rest := by
  have front : tag <+: tag ++ rest := List.prefix_append tag rest
  obtain ⟨c, tail, shape⟩ : ∃ c tail, tag = c :: tail := by
    cases tag with
    | nil => exact absurd (tags_begin [] member) (by decide)
    | cons c tail => exact ⟨c, tail, rfl⟩
  have found : tags.find? (fun tag => tag.isPrefixOf (c :: (tail ++ rest))) = some tag := by
    cases search : tags.find? (fun tag => tag.isPrefixOf (c :: (tail ++ rest))) with
    | none =>
        have absent := List.find?_eq_none.mp search tag member
        exact absurd (List.isPrefixOf_iff_prefix.mpr (by simp [shape])) absent
    | some other =>
        have otherMember := List.mem_of_find?_eq_some search
        have here : other <+: tag ++ rest := by
          have fits := List.find?_some search
          simpa [shape] using List.isPrefixOf_iff_prefix.mp fits
        rw [tag_unique other tag _ otherMember member here front]
  subst shape
  rw [List.cons_append, dropTags, found]
  simp

theorem drop_tags_content (s rest : Text) (plain : '<' ∉ s) :
    dropTags (s ++ rest) = s ++ dropTags rest := by
  induction s with
  | nil => rfl
  | cons c s ih =>
      have different : c ≠ '<' := fun same => plain (same ▸ List.mem_cons_self)
      rw [List.cons_append, drop_tags_plain c _ different,
        ih fun member => plain (List.mem_cons_of_mem c member), List.cons_append]

theorem drop_tags_piece (piece : Piece) (rest : Text) :
    dropTags (piece.render ++ rest) = escapeContent piece.text ++ dropTags rest := by
  have plain := (escape_content_escaped piece.text).noOpening
  unfold Piece.render
  cases piece.style with
  | none => exact drop_tags_content _ rest plain
  | some style =>
      have closing : Piece.closeTag ∈ tags := List.mem_cons_self
      simp only [List.append_assoc]
      rw [drop_tags_tag _ _ (open_tag_is_tag style), drop_tags_content _ _ plain,
        drop_tags_tag _ _ closing]

theorem drop_tags_render (pieces : List Piece) :
    dropTags (render pieces) = escapeContent (pieces.flatMap Piece.text) := by
  induction pieces with
  | nil => simp [render, dropTags, escapeContent, replaceChar]
  | cons piece pieces ih =>
      have split : render (piece :: pieces) = piece.render ++ render pieces := rfl
      rw [split, drop_tags_piece, ih, List.flatMap_cons, escape_content_append]

theorem render_is_markup (pieces : List Piece) : IsMarkup (render pieces) := by
  induction pieces with
  | nil => exact .nil
  | cons piece pieces ih =>
      have split : render (piece :: pieces) = piece.render ++ render pieces := rfl
      have escaped := escape_content_escaped piece.text
      rw [split]
      unfold Piece.render
      cases piece.style with
      | none => exact .content _ _ escaped ih
      | some style => exact .span _ _ _ (style_named style) escaped ih

theorem slice_append_drop (s : Text) (start stop : Nat) (ordered : start ≤ stop) :
    slice s start stop ++ s.drop stop = s.drop start := by
  calc slice s start stop ++ s.drop stop
      = (s.take stop).drop start ++ (s.drop stop).drop (start - (s.take stop).length) := by
        by_cases inside : start ≤ s.length
        · have front : start - (s.take stop).length = 0 := by
            rw [List.length_take]
            omega
          rw [front, List.drop_zero, slice]
        · have empty : s.drop stop = [] := List.drop_eq_nil_of_le (by omega)
          rw [empty, List.drop_nil, slice]
    _ = (s.take stop ++ s.drop stop).drop start := List.drop_append.symm
    _ = s.drop start := by rw [List.take_append_drop]

theorem pieces_from_text (s : Text) (last : Nat) (tokens : List (Text.Found TokenKind))
    (ordered : Text.InOrder s.length last tokens) :
    (piecesFrom s last tokens).flatMap Piece.text = s.drop last := by
  induction tokens generalizing last with
  | nil => simp [piecesFrom]
  | cons token tokens ih =>
      obtain ⟨behind, forward, -, later⟩ := ordered
      simp only [piecesFrom, List.flatMap_cons]
      rw [ih token.stop later, slice_append_drop s _ _ (Nat.le_of_lt forward),
        slice_append_drop s _ _ behind]

theorem pieces_text (s : Text) : (pieces s).flatMap Piece.text = s :=
  pieces_from_text s 0 (Token.all s) (Text.find_all_in_order _ s)

theorem pieces_of_text (highlighter : Highlighter) (language s : Text) :
    (highlighter.piecesOf language s).flatMap Piece.text = s := by
  cases highlighter with
  | plain => simp [Highlighter.piecesOf]
  | tokens =>
      by_cases known : Highlighter.knows language
      · simpa [Highlighter.piecesOf, known] using pieces_text s
      · simp [Highlighter.piecesOf, known]

theorem drop_tags_highlight (highlighter : Highlighter) (language s : Text) :
    dropTags (highlighter.highlight language s) = escapeContent s := by
  rw [Highlighter.highlight, drop_tags_render, pieces_of_text]

theorem highlight_plain (language s : Text) :
    Highlighter.plain.highlight language s = escapeContent s := by
  simp [Highlighter.highlight, Highlighter.piecesOf, render, Piece.render]

/-- Highlighted text is escaped text with spans around parts of it: without their tags it is the
text as it is shown plainly, and that reads back. -/
theorem highlight_faithful (highlighter : Highlighter) (language s : Text) :
    IsMarkup (highlighter.highlight language s) ∧
      dropTags (highlighter.highlight language s) = Highlighter.plain.highlight language s ∧
      Highlighter.plain.highlight language s = escapeContent s ∧
      unescape (dropTags (highlighter.highlight language s)) = s := by
  refine ⟨render_is_markup _, ?_, highlight_plain language s, ?_⟩
  · rw [drop_tags_highlight, highlight_plain]
  · rw [drop_tags_highlight, unescape_escape]

end OrderOfGrowth.Markup
