import OrderOfGrowth.Proofs.Text.LineEnds
import OrderOfGrowth.Proofs.Text.Search

/-!
Texts with margins around them. Lines at the edge get longer by what is trimmed off them again, and all
other lines that are added are blank (`lines_append_margin`, `lines_cons_margin`). What a pattern takes
has to end at characters outside the margins for the pattern to occur nowhere else (`occurs_in_margins`).
-/

set_option autoImplicit false

namespace OrderOfGrowth

namespace Text

def Margin (s : Text) : Prop :=
  ∀ c ∈ s, isMargin c = true

instance (s : Text) : Decidable (Margin s) :=
  List.decidableBAll (isMargin · = true) s

theorem Margin.without {s : Text} (margin : Margin s) {c : Char} (outside : isMargin c = false) : c ∉ s := by
  intro member
  rw [margin c member] at outside
  cases outside

theorem trim_margin_cons (c : Char) (s : Text) (margin : isMargin c = true) :
    trimMargin (c :: s) = trimMargin s := by
  have around := trim_by_around isMargin [c] s [] (List.forall_mem_singleton.mpr margin) (List.forall_mem_nil _)
  rwa [List.append_nil] at around

theorem trim_blank (s : Text) (blank : Margin s) : trimMargin s = [] :=
  (trim_margin_nil_iff s).mpr blank

-- Two lines that differ in the margin at their ends alone.
def EndInMargins (line other : Text) : Prop :=
  ∃ core rest more, line = core ++ rest ∧ other = core ++ more ∧ Margin rest ∧ Margin more

theorem end_in_margins_cons (c : Char) (line other : Text) (alike : EndInMargins line other) :
    EndInMargins (c :: line) (c :: other) := by
  obtain ⟨core, rest, more, rfl, rfl, blank, blankMore⟩ := alike
  exact ⟨c :: core, rest, more, rfl, rfl, blank, blankMore⟩

theorem trim_end_in_margins (line other : Text) (alike : EndInMargins line other) :
    trimMargin other = trimMargin line := by
  obtain ⟨core, rest, more, rfl, rfl, blank, blankMore⟩ := alike
  rw [trim_margin_append core more blankMore, trim_margin_append core rest blank]

theorem mem_lines (s line : Text) (c : Char) (among : line ∈ lines s) (member : c ∈ line) : c ∈ s := by
  induction s using lines.induct generalizing line with
  | case1 => simp [lines] at among
  | case2 s ih =>
      rw [lines, List.mem_cons] at among
      rcases among with rfl | among
      · cases member
      · exact List.mem_cons_of_mem _ (ih line among member)
  | case3 s ih =>
      rw [lines, List.mem_cons] at among
      rcases among with rfl | among
      · cases member
      · exact List.mem_cons_of_mem _ (List.mem_cons_of_mem _ (ih line among member))
  | case4 d s plain noEnd none ih =>
      rw [lines.eq_4 d s plain noEnd, none, List.mem_singleton] at among
      rw [among, List.mem_singleton] at member
      rw [member]
      exact List.mem_cons_self
  | case5 d s plain noEnd l ls behind ih =>
      rw [lines.eq_4 d s plain noEnd, behind, List.mem_cons] at among
      rw [behind] at ih
      rcases among with rfl | among
      · rw [List.mem_cons] at member
        rcases member with rfl | member
        · exact List.mem_cons_self
        · exact List.mem_cons_of_mem d (ih l List.mem_cons_self member)
      · exact List.mem_cons_of_mem d (ih line (List.mem_cons_of_mem l among) member)

theorem lines_of_margin (s : Text) (margin : Margin s) : ∀ line ∈ lines s, Margin line :=
  fun line among c member => margin c (mem_lines s line c among member)

-- The line of a character that ends no line, with nothing but margin behind it.
theorem lines_of_character (c : Char) (back : Text) (plain : c ≠ '\n') (margin : Margin back) :
    ∃ other blanks, lines (c :: back) = other :: blanks ∧ EndInMargins [c] other ∧
      ∀ line ∈ blanks, Margin line := by
  cases split : c :: back using lines.fun_cases with
  | case1 => cases split
  | case2 t => exact absurd (List.cons.inj split).1 plain
  | case3 t =>
      obtain ⟨rfl, rfl⟩ := List.cons.inj split
      refine ⟨[], lines t, by rw [lines], ⟨[], ['\r'], [], rfl, rfl, by decide, by decide⟩, ?_⟩
      exact lines_of_margin t fun c member => margin c (List.mem_cons_of_mem _ member)
  | case4 d t other noEnd none =>
      obtain ⟨rfl, rfl⟩ := List.cons.inj split
      refine ⟨[c], [], by rw [lines.eq_4 c back other noEnd, none], ?_, List.forall_mem_nil _⟩
      exact ⟨[c], [], [], rfl, rfl, by decide, by decide⟩
  | case5 d t other noEnd l ls behind =>
      obtain ⟨rfl, rfl⟩ := List.cons.inj split
      have blank := lines_of_margin back margin
      rw [behind, List.forall_mem_cons] at blank
      refine ⟨c :: l, ls, by rw [lines.eq_4 c back other noEnd, behind], ?_, blank.2⟩
      exact ⟨[c], [], l, rfl, rfl, by decide, blank.1⟩

theorem lines_append_margin (s back : Text) (margin : Margin back) :
    ∃ others blanks, lines (s ++ back) = others ++ blanks ∧
      List.Forall₂ EndInMargins (lines s) others ∧ ∀ line ∈ blanks, Margin line := by
  induction s using lines.induct with
  | case1 => exact ⟨[], lines back, rfl, .nil, lines_of_margin back margin⟩
  | case2 s ih =>
      obtain ⟨others, blanks, read, alike, blank⟩ := ih
      refine ⟨[] :: others, blanks, ?_, ?_, blank⟩
      · rw [List.cons_append, lines, read, List.cons_append]
      · rw [lines]
        exact .cons ⟨[], [], [], rfl, rfl, by decide, by decide⟩ alike
  | case3 s ih =>
      obtain ⟨others, blanks, read, alike, blank⟩ := ih
      refine ⟨[] :: others, blanks, ?_, ?_, blank⟩
      · rw [List.cons_append, List.cons_append, lines, read, List.cons_append]
      · rw [lines]
        exact .cons ⟨[], [], [], rfl, rfl, by decide, by decide⟩ alike
  | case4 c s plain noEnd none ih =>
      obtain rfl := (lines_nil_iff s).mp none
      obtain ⟨other, blanks, read, alike, blank⟩ := lines_of_character c back plain margin
      refine ⟨[other], blanks, read, ?_, blank⟩
      rw [lines.eq_4 c [] plain noEnd, lines]
      exact .cons alike .nil
  | case5 c s plain noEnd l ls behind ih =>
      have noEndHere : ∀ rest, c = '\r' → s ++ back = '\n' :: rest → False := by
        intro rest carriage split
        cases s with
        | nil => simp [lines] at behind
        | cons d s =>
            obtain ⟨rfl, -⟩ := List.cons.inj split
            exact noEnd s carriage rfl
      obtain ⟨others, blanks, read, alike, blank⟩ := ih
      rw [behind] at alike
      cases alike with
      | @cons _ other _ others first rest =>
          refine ⟨(c :: other) :: others, blanks, ?_, ?_, blank⟩
          · rw [List.cons_append, lines.eq_4 c (s ++ back) plain noEndHere, read]
            rfl
          · rw [lines.eq_4 c s plain noEnd, behind]
            exact .cons (end_in_margins_cons c l other first) rest

theorem lines_cons_margin (c : Char) (s : Text) (margin : isMargin c = true) :
    (∃ blank, Margin blank ∧ lines (c :: s) = blank :: lines s) ∨
      ∃ line next more, lines s = line :: more ∧ lines (c :: s) = next :: more ∧
        trimMargin next = trimMargin line := by
  cases split : c :: s using lines.fun_cases with
  | case1 => cases split
  | case2 t =>
      obtain ⟨rfl, rfl⟩ := List.cons.inj split
      exact .inl ⟨[], by decide, by rw [lines]⟩
  | case3 t =>
      obtain ⟨rfl, rfl⟩ := List.cons.inj split
      exact .inr ⟨[], [], lines t, by rw [lines], by rw [lines], rfl⟩
  | case4 d t plain noEnd none =>
      obtain ⟨rfl, rfl⟩ := List.cons.inj split
      exact .inl ⟨[c], by simpa [Margin] using margin, by rw [lines.eq_4 c s plain noEnd, none]⟩
  | case5 d t plain noEnd l ls behind =>
      obtain ⟨rfl, rfl⟩ := List.cons.inj split
      exact .inr ⟨l, c :: l, ls, behind, by rw [lines.eq_4 c s plain noEnd, behind], trim_margin_cons c l margin⟩

-- A text that has something outside the margins at either end.
def isSolid (s : Text) : Bool :=
  s.head?.any (!isMargin ·) && s.getLast?.any (!isMargin ·)

theorem solid_inside (front s back before core after : Text) (ahead : Margin front) (behind : Margin back)
    (solid : isSolid core = true) (same : front ++ (s ++ back) = before ++ (core ++ after)) :
    ∃ earlier later, s = earlier ++ (core ++ later) := by
  simp only [isSolid, Bool.and_eq_true, Option.any_eq_true, Bool.not_eq_true'] at solid
  obtain ⟨⟨first, starts, outside⟩, last, ends, outsideToo⟩ := solid
  obtain ⟨start, coreEq⟩ := List.getLast?_eq_some_iff.mp ends
  obtain ⟨tail, coreSplit⟩ := List.head?_eq_some_iff.mp starts
  have fromFirst : front ++ (s ++ back) = before ++ first :: (tail ++ after) := by
    rw [same, coreSplit]
    rfl
  obtain ⟨earlier, -, split⟩ := cut_behind first front _ before _ (ahead.without outside) fromFirst
  have toLast : s ++ back = (earlier ++ start) ++ last :: after := by
    calc s ++ back = earlier ++ (core ++ after) := by rw [split, coreSplit]; rfl
      _ = (earlier ++ start) ++ last :: after := by rw [coreEq]; simp
  obtain ⟨later, -, whole⟩ := cut_ahead last s back _ after (behind.without outsideToo) toLast
  exact ⟨earlier, later, by rw [whole, coreEq]; simp⟩

end Text

namespace Pattern

open Text (Margin isMargin isSolid)

-- Of each text that is accepted a solid part is accepted, with the same start.
def TakesSolid (pattern : Pattern) : Prop :=
  ∀ w, Accepts pattern w → ∃ core rest, w = core ++ rest ∧ Accepts pattern core ∧ isSolid core = true

theorem takes_solid (word : Text) (parts tail : List Pattern) (ending : Pattern)
    (starts : isSolid word = true) (ends : ∀ w, Accepts ending w → isSolid w = true)
    (skips : Accepts (sequence tail) []) :
    TakesSolid (sequence (.text word :: (parts ++ ending :: tail))) := by
  intro w accepted
  obtain ⟨front, _, head, following, rfl⟩ := (accepts_sequence_cons _ _ w).mp accepted
  obtain ⟨middle, _, inside, further, rfl⟩ := (accepts_sequence_append parts (ending :: tail) _).mp following
  obtain ⟨last, behind, ended, -, rfl⟩ := (accepts_sequence_cons ending tail _).mp further
  refine ⟨front ++ (middle ++ last), behind, by simp, ?_, ?_⟩
  · refine ⟨front, middle ++ last, head, ?_, rfl⟩
    refine (accepts_sequence_append parts (ending :: tail) _).mpr ⟨middle, last, inside, ?_, rfl⟩
    exact ⟨last, [], ended, skips, by simp⟩
  · rw [← (accepts_text word front).mp head] at starts
    have solidEnd := ends last ended
    simp only [isSolid, Bool.and_eq_true, Option.any_eq_true] at starts solidEnd ⊢
    obtain ⟨⟨c, first, outside⟩, -⟩ := starts
    obtain ⟨-, d, final, outsideToo⟩ := solidEnd
    exact ⟨⟨c, by simp [first], outside⟩, d, by simp [List.getLast?_append, final], outsideToo⟩

theorem occurs_in_margins (pattern : Pattern) (solid : TakesSolid pattern) (front s back : Text)
    (ahead : Margin front) (behind : Margin back) :
    occurs pattern (front ++ (s ++ back)) = occurs pattern s := by
  rw [Bool.eq_iff_iff]
  constructor
  · intro found
    obtain ⟨before, w, after, accepted, split⟩ := (occurs_iff pattern _).mp found
    obtain ⟨core, rest, rfl, taken, whole⟩ := solid w accepted
    rw [List.append_assoc] at split
    obtain ⟨earlier, later, rfl⟩ := Text.solid_inside front s back before core _ ahead behind whole split
    exact (occurs_iff pattern _).mpr ⟨earlier, core, later, taken, rfl⟩
  · exact occurs_between pattern front s back

end Pattern

end OrderOfGrowth
