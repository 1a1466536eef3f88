import OrderOfGrowth.Proofs.Text.Trim

/-!
Lines of a text that goes on. Appended text leaves all lines but the last as they are and may go on
with the last one; whole lines in front come in front of the others.
-/

set_option autoImplicit false

namespace OrderOfGrowth.Text

theorem lines_nil_iff (s : Text) : lines s = [] ↔ s = [] := by
  constructor
  · intro none
    cases s using lines.fun_cases with
    | case1 => rfl
    | case2 s => simp [lines] at none
    | case3 s => simp [lines] at none
    | case4 c s plain noEnd last => simp [lines.eq_4 c s plain noEnd, last] at none
    | case5 c s plain noEnd l ls behind => simp [lines.eq_4 c s plain noEnd, behind] at none
  · intro none
    rw [none, lines]

-- The same line before and after text is appended: it goes on, or a carriage return at its end
-- has become part of the line feed that was appended.
def Continues (last next : Text) : Prop :=
  last <+: next ∨ last = next ++ ['\r']

theorem continues_cons (c : Char) (last next : Text) (continues : Continues last next) :
    Continues (c :: last) (c :: next) := by
  rcases continues with goesOn | ended
  · exact .inl (List.cons_prefix_cons.mpr ⟨rfl, goesOn⟩)
  · exact .inr (by rw [ended]; rfl)

theorem continues_single (c : Char) (t : Text) :
    ∃ next more, lines (c :: t) = next :: more ∧ (c ≠ '\n' → Continues [c] next) := by
  cases split : c :: t using lines.fun_cases with
  | case1 => cases split
  | case2 s =>
      obtain ⟨rfl, rfl⟩ := List.cons.inj split
      exact ⟨[], lines t, by rw [lines], fun different => absurd rfl different⟩
  | case3 s =>
      obtain ⟨rfl, rfl⟩ := List.cons.inj split
      exact ⟨[], lines s, by rw [lines], fun _ => .inr rfl⟩
  | case4 d s plain noEnd last =>
      obtain ⟨rfl, rfl⟩ := List.cons.inj split
      refine ⟨[c], [], by rw [lines.eq_4 c t plain noEnd, last], fun _ => .inl (List.prefix_refl _)⟩
  | case5 d s plain noEnd l ls behind =>
      obtain ⟨rfl, rfl⟩ := List.cons.inj split
      refine ⟨c :: l, ls, by rw [lines.eq_4 c t plain noEnd, behind], fun _ => .inl ?_⟩
      exact List.cons_prefix_cons.mpr ⟨rfl, List.nil_prefix⟩

def WholeLines (s : Text) : Prop :=
  ∀ c ∈ s.getLast?, c = '\n'

theorem whole_lines_tail (c : Char) (s : Text) (whole : WholeLines (c :: s)) : WholeLines s := by
  intro d last
  cases s with
  | nil => simp at last
  | cons e s => exact whole d (by simpa using last)

theorem lines_append (s t : Text) :
    lines (s ++ t) = lines s ++ lines t ∨ (¬ WholeLines s ∧
      ∃ front last next more, lines s = front ++ [last] ∧ lines (s ++ t) = front ++ next :: more ∧
        Continues last next) := by
  induction s using lines.induct with
  | case1 => exact .inl rfl
  | case2 s ih =>
      rw [List.cons_append, lines, lines]
      rcases ih with behind | ⟨open_, front, last, next, more, before, after, continues⟩
      · exact .inl (congrArg (List.cons []) behind)
      · right
        exact ⟨fun whole => open_ (whole_lines_tail _ _ whole), [] :: front, last, next, more,
          congrArg (List.cons []) before, congrArg (List.cons []) after, continues⟩
  | case3 s ih =>
      rw [List.cons_append, List.cons_append, lines, lines]
      rcases ih with behind | ⟨open_, front, last, next, more, before, after, continues⟩
      · exact .inl (congrArg (List.cons []) behind)
      · right
        refine ⟨fun whole => open_ (whole_lines_tail _ _ (whole_lines_tail _ _ whole)), [] :: front,
          last, next, more, ?_, ?_, continues⟩
        · exact congrArg (List.cons []) before
        · exact congrArg (List.cons []) after
  | case4 c s plain noEnd none ih =>
      obtain rfl := (lines_nil_iff s).mp none
      obtain ⟨next, more, after, continues⟩ := continues_single c t
      right
      refine ⟨fun whole => plain (whole c rfl), [], [c], next, more, ?_, after, continues plain⟩
      rw [lines.eq_4 c [] plain noEnd, lines]
      rfl
  | case5 c s plain noEnd l ls behind ih =>
      have noEndAppended : ∀ rest, c = '\r' → s ++ t = '\n' :: rest → False := by
        intro rest carriage split
        cases s with
        | nil => simp [lines] at behind
        | cons d s =>
            obtain ⟨rfl, -⟩ := List.cons.inj split
            exact noEnd s carriage rfl
      rw [List.cons_append, lines.eq_4 c s plain noEnd, lines.eq_4 c (s ++ t) plain noEndAppended]
      rcases ih with appended | ⟨open_, front, last, next, more, before, after, continues⟩
      · left
        rw [appended, behind]
        rfl
      · right
        refine ⟨fun whole => open_ (whole_lines_tail _ _ whole), ?_⟩
        cases front with
        | nil =>
            refine ⟨[], c :: last, c :: next, more, ?_, ?_, continues_cons c last next continues⟩
            · rw [before]
              rfl
            · rw [after]
              rfl
        | cons first front =>
            refine ⟨(c :: first) :: front, last, next, more, ?_, ?_, continues⟩
            · rw [before]
              rfl
            · rw [after]
              rfl

theorem lines_append_whole (s t : Text) (whole : WholeLines s) :
    lines (s ++ t) = lines s ++ lines t :=
  (lines_append s t).resolve_right fun broken => broken.1 whole

-- Trimming at the end stops before it reaches a word that has nothing of the margin in it.
theorem prefix_trimmed_end (word rest : Text) (nonempty : word ≠ [])
    (inside : ∀ c ∈ word, isMargin c = false) : word <+: (word ++ rest).rdropWhile isMargin := by
  induction rest using List.reverseRecOn with
  | nil =>
      have kept : word.rdropWhile isMargin = word :=
        List.rdropWhile_eq_self_iff.mpr fun _ => by simp [inside _ (List.getLast_mem nonempty)]
      exact ⟨[], by rw [List.append_nil, kept]⟩
  | append_singleton rest c ih =>
      rw [← List.append_assoc, List.rdropWhile_concat]
      by_cases margin : isMargin c
      · rw [if_pos margin]
        exact ih
      · rw [if_neg margin, List.append_assoc]
        exact List.prefix_append word _

theorem word_prefix_trim_iff (word line : Text) (nonempty : word ≠ [])
    (inside : ∀ c ∈ word, isMargin c = false) :
    word <+: trimMargin line ↔ word <+: line.dropWhile isMargin := by
  change word <+: (line.dropWhile isMargin).rdropWhile isMargin ↔ _
  constructor
  · intro starts
    exact starts.trans (List.rdropWhile_prefix isMargin _)
  · intro starts
    obtain ⟨rest, split⟩ := starts
    rw [← split]
    exact prefix_trimmed_end word rest nonempty inside

theorem word_starts_iff (word line : Text) (nonempty : word ≠ []) (inside : ∀ c ∈ word, isMargin c = false) :
    word <+: trimMargin line ↔
      ∃ front rest, line = front ++ (word ++ rest) ∧ ∀ c ∈ front, isMargin c = true := by
  rw [word_prefix_trim_iff word line nonempty inside]
  constructor
  · rintro ⟨rest, split⟩
    refine ⟨line.takeWhile isMargin, rest, ?_, fun c member => List.mem_takeWhile_imp member⟩
    rw [split, List.takeWhile_append_dropWhile]
  · rintro ⟨front, rest, rfl, ahead⟩
    have starts : ∀ c ∈ (word ++ rest).head?, isMargin c = false := by
      intro c first
      rw [List.head?_append_of_ne_nil _ nonempty] at first
      exact inside c (List.mem_of_mem_head? first)
    rw [List.dropWhile_append_of_pos ahead, drop_while_self isMargin _ starts]
    exact List.prefix_append word rest

theorem word_prefix_continues (word last next : Text) (nonempty : word ≠ [])
    (inside : ∀ c ∈ word, isMargin c = false) (continues : Continues last next)
    (starts : word <+: trimMargin last) : word <+: trimMargin next := by
  rw [word_prefix_trim_iff word _ nonempty inside] at starts ⊢
  rcases continues with ⟨rest, rfl⟩ | rfl
  · have kept : (last.dropWhile isMargin).isEmpty = false := by
      rw [List.isEmpty_eq_false_iff]
      intro none
      rw [none] at starts
      exact nonempty (List.prefix_nil.mp starts)
    rw [List.dropWhile_append, kept]
    exact starts.trans (List.prefix_append _ _)
  · rw [List.dropWhile_append] at starts
    by_cases none : (next.dropWhile isMargin).isEmpty
    · rw [if_pos none] at starts
      exact absurd (List.prefix_nil.mp starts) nonempty
    · rw [if_neg none] at starts
      rcases List.prefix_concat_iff.mp starts with whole | shorter
      · have margin := inside '\r' (whole ▸ List.mem_append_right _ List.mem_cons_self)
        exact absurd margin (by decide)
      · exact shorter

end OrderOfGrowth.Text
