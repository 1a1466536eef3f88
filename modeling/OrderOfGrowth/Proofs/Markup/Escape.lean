import OrderOfGrowth.Markup.Escape

/-!
Escaped content. The three replacements together act on each character alone, whatever stands
beside it (`escape_content_cons`); what they write has no bare mark (`escape_content_escaped`), and
one pass reads the text back (`unescape_escape`).
-/

set_option autoImplicit false

namespace OrderOfGrowth.Markup

def entities : List Text :=
  ["&amp;".toList, "&lt;".toList, "&gt;".toList]

def escapeChar (c : Char) : Text :=
  if c = '&' then "&amp;".toList
  else if c = '<' then "&lt;".toList
  else if c = '>' then "&gt;".toList
  else [c]

structure IsEscaped (s : Text) : Prop where
  noOpening : '<' ∉ s
  noClosing : '>' ∉ s
  entity : ∀ rest, '&' :: rest <:+ s → ∃ name ∈ entities, name <+: '&' :: rest

def unescape : Text → Text
  | '&' :: 'a' :: 'm' :: 'p' :: ';' :: s => '&' :: unescape s
  | '&' :: 'l' :: 't' :: ';' :: s => '<' :: unescape s
  | '&' :: 'g' :: 't' :: ';' :: s => '>' :: unescape s
  | c :: s => c :: unescape s
  | [] => []

theorem replace_char_append (target : Char) (replacement s t : Text) :
    replaceChar target replacement (s ++ t) =
      replaceChar target replacement s ++ replaceChar target replacement t :=
  List.flatMap_append

theorem escape_content_append (s t : Text) :
    escapeContent (s ++ t) = escapeContent s ++ escapeContent t := by
  simp only [escapeContent, replace_char_append]

-- The entities that are written for ampersands have no angle, so the later passes leave them alone.
theorem escape_content_single (c : Char) : escapeContent [c] = escapeChar c := by
  by_cases ampersand : c = '&'
  · subst ampersand
    decide
  · by_cases less : c = '<'
    · subst less
      decide
    · by_cases greater : c = '>'
      · subst greater
        decide
      · simp [escapeContent, replaceChar, escapeChar, ampersand, less, greater]

theorem escape_content_cons (c : Char) (s : Text) :
    escapeContent (c :: s) = escapeChar c ++ escapeContent s := by
  rw [← escape_content_single, ← escape_content_append]
  rfl

theorem escape_char_cases (c : Char) :
    (c ≠ '&' ∧ c ≠ '<' ∧ c ≠ '>' ∧ escapeChar c = [c]) ∨
      ∃ name, escapeChar c = '&' :: name ∧ '&' :: name ∈ entities ∧
        ∀ s, unescape ('&' :: (name ++ s)) = c :: unescape s := by
  by_cases ampersand : c = '&'
  · subst ampersand
    exact .inr ⟨"amp;".toList, by decide, by decide, fun _ => rfl⟩
  · by_cases less : c = '<'
    · subst less
      exact .inr ⟨"lt;".toList, by decide, by decide, fun _ => rfl⟩
    · by_cases greater : c = '>'
      · subst greater
        exact .inr ⟨"gt;".toList, by decide, by decide, fun _ => rfl⟩
      · exact .inl ⟨ampersand, less, greater, by simp [escapeChar, ampersand, less, greater]⟩

theorem escaped_nil : IsEscaped [] := by
  refine ⟨List.not_mem_nil, List.not_mem_nil, ?_⟩
  intro rest suffix
  exact absurd (List.suffix_nil.mp suffix) (List.cons_ne_nil _ _)

theorem escaped_append (s t : Text) (left : IsEscaped s) (right : IsEscaped t) :
    IsEscaped (s ++ t) := by
  refine ⟨by simp [left.noOpening, right.noOpening], by simp [left.noClosing, right.noClosing], ?_⟩
  intro rest suffix
  obtain within | covering := List.suffix_or_suffix_of_suffix suffix (List.suffix_append s t)
  · exact right.entity rest within
  · obtain ⟨front, same⟩ := covering
    cases front with
    | nil =>
        rw [List.nil_append] at same
        exact right.entity rest (same ▸ List.suffix_rfl)
    | cons c front =>
        -- The ampersand stands in `s`, and so does its whole entity.
        have tail := (List.cons.inj same).2
        have head := (List.cons.inj same).1
        subst head tail
        have ends : '&' :: front <:+ s := by
          obtain ⟨before, whole⟩ := suffix
          have joined : (before ++ '&' :: front) ++ t = s ++ t := by simpa using whole
          exact ⟨before, List.append_cancel_right joined⟩
        obtain ⟨name, member, start⟩ := left.entity front ends
        exact ⟨name, member, start.trans (List.prefix_append _ _)⟩

theorem entity_escaped (name : Text) (member : '&' :: name ∈ entities) :
    IsEscaped ('&' :: name) := by
  have marks : ∀ entity ∈ entities, '<' ∉ entity ∧ '>' ∉ entity ∧ '&' ∉ entity.tail := by
    decide
  obtain ⟨noOpening, noClosing, once⟩ := marks _ member
  refine ⟨noOpening, noClosing, ?_⟩
  intro rest suffix
  cases List.suffix_cons_iff.mp suffix with
  | inl same => exact ⟨_, member, same ▸ List.prefix_rfl⟩
  | inr later => exact absurd (later.subset List.mem_cons_self) once

theorem escape_char_escaped (c : Char) : IsEscaped (escapeChar c) := by
  obtain ⟨ampersand, less, greater, same⟩ | ⟨name, same, member, -⟩ := escape_char_cases c
  · rw [same]
    refine ⟨by simp [Ne.symm less], by simp [Ne.symm greater], ?_⟩
    intro rest suffix
    have inside : '&' ∈ [c] := suffix.subset List.mem_cons_self
    exact absurd (List.mem_singleton.mp inside).symm ampersand
  · rw [same]
    exact entity_escaped _ member

theorem escape_content_escaped (s : Text) : IsEscaped (escapeContent s) := by
  induction s with
  | nil => exact escaped_nil
  | cons c s ih =>
      rw [escape_content_cons]
      exact escaped_append _ _ (escape_char_escaped c) ih

theorem unescape_cons (c : Char) (s : Text) (plain : c ≠ '&') :
    unescape (c :: s) = c :: unescape s := by
  conv =>
    lhs
    unfold unescape
  split <;> simp_all

theorem unescape_escape (s : Text) : unescape (escapeContent s) = s := by
  induction s with
  | nil => rfl
  | cons c s ih =>
      rw [escape_content_cons]
      obtain ⟨ampersand, -, -, same⟩ | ⟨name, same, -, readBack⟩ := escape_char_cases c
      · rw [same, List.singleton_append, unescape_cons c _ ampersand, ih]
      · rw [same, List.cons_append, readBack, ih]

end OrderOfGrowth.Markup
