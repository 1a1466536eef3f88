import OrderOfGrowth.Text.WhiteSpace
import Mathlib.Data.List.DropRight

/-!
Trimmed texts. What trimming leaves is the one part of a text that begins and ends with nothing that is
dropped and has only dropped characters around it (`trim_by_iff`); what trimming does to a text with more
around it, or with nothing to drop, follows from that.
-/

set_option autoImplicit false

namespace OrderOfGrowth.Text

section Trim

variable (drop : Char → Bool)

-- The part of a text that lies between characters which are dropped, and begins and ends with none of them.
structure TrimsTo (s core : Text) : Prop where
  around : ∃ front back, s = front ++ (core ++ back) ∧ (∀ c ∈ front, drop c = true) ∧ ∀ c ∈ back, drop c = true
  starts : ∀ c ∈ core.head?, drop c = false
  ends : ∀ c ∈ core.getLast?, drop c = false

theorem drop_while_self (s : Text) (starts : ∀ c ∈ s.head?, drop c = false) : s.dropWhile drop = s := by
  cases s with
  | nil => rfl
  | cons c s => rw [List.dropWhile_cons_of_neg (by simp [starts c rfl])]

theorem drop_while_starts (s : Text) : ∀ c ∈ (s.dropWhile drop).head?, drop c = false := by
  induction s with
  | nil => simp
  | cons c s ih =>
      by_cases dropped : drop c
      · rw [List.dropWhile_cons_of_pos dropped]
        exact ih
      · rw [List.dropWhile_cons_of_neg dropped]
        simpa using dropped

theorem trims_to_trimmed (s : Text) : TrimsTo drop s (trimBy drop s) := by
  have whole : s = s.takeWhile drop ++ (trimBy drop s ++ (s.dropWhile drop).rtakeWhile drop) := by
    change s = _ ++ ((s.dropWhile drop).rdropWhile drop ++ _)
    rw [List.rdropWhile_append_rtakeWhile, List.takeWhile_append_dropWhile]
  refine ⟨⟨s.takeWhile drop, (s.dropWhile drop).rtakeWhile drop, whole, ?_, ?_⟩, ?_, ?_⟩
  · exact fun c member => List.mem_takeWhile_imp member
  · exact fun c member => List.mem_rtakeWhile_imp member
  · -- What is kept stands first in what was left after the front, which starts with nothing that is dropped.
    obtain ⟨rest, split⟩ := List.rdropWhile_prefix drop (s.dropWhile drop)
    intro c (first : ((s.dropWhile drop).rdropWhile drop).head? = some c)
    refine drop_while_starts drop s c ?_
    rw [← split, List.head?_append, first]
    rfl
  · rw [trimBy, List.getLast?_reverse]
    exact drop_while_starts drop _

theorem trim_by_of_trims_to (s core : Text) (trims : TrimsTo drop s core) : trimBy drop s = core := by
  obtain ⟨⟨front, back, rfl, ahead, behind⟩, starts, ends⟩ := trims
  have backwards : ∀ c ∈ back.reverse, drop c = true := fun c member => behind c (List.mem_reverse.mp member)
  rw [trimBy, List.dropWhile_append_of_pos ahead]
  by_cases none : core = []
  · rw [none, List.nil_append, List.dropWhile_eq_nil_iff.mpr behind]
    rfl
  · have startsToo : ∀ c ∈ (core ++ back).head?, drop c = false := by
      rwa [List.head?_append_of_ne_nil _ none]
    rw [drop_while_self drop _ startsToo, List.reverse_append, List.dropWhile_append_of_pos backwards,
      drop_while_self drop _ (by rwa [List.head?_reverse]), List.reverse_reverse]

theorem trim_by_iff (s core : Text) : trimBy drop s = core ↔ TrimsTo drop s core := by
  constructor
  · rintro rfl
    exact trims_to_trimmed drop s
  · exact trim_by_of_trims_to drop s core

theorem trim_by_self (s : Text) (starts : ∀ c ∈ s.head?, drop c = false)
    (ends : ∀ c ∈ s.getLast?, drop c = false) : trimBy drop s = s := by
  rw [trim_by_iff]
  exact ⟨⟨[], [], by simp, by simp, by simp⟩, starts, ends⟩

theorem trim_by_around (front s back : Text) (ahead : ∀ c ∈ front, drop c = true)
    (behind : ∀ c ∈ back, drop c = true) : trimBy drop (front ++ (s ++ back)) = trimBy drop s := by
  obtain ⟨⟨first, last, split, firstDropped, lastDropped⟩, starts, ends⟩ := trims_to_trimmed drop s
  rw [trim_by_iff]
  refine ⟨⟨front ++ first, last ++ back, ?_, ?_, ?_⟩, starts, ends⟩
  · conv_lhs => rw [split]
    simp only [List.append_assoc]
  · exact List.forall_mem_append.mpr ⟨ahead, firstDropped⟩
  · exact List.forall_mem_append.mpr ⟨lastDropped, behind⟩

theorem trim_by_nil_iff (s : Text) : trimBy drop s = [] ↔ ∀ c ∈ s, drop c = true := by
  rw [trim_by_iff]
  constructor
  · rintro ⟨⟨front, back, rfl, ahead, behind⟩, -, -⟩
    exact List.forall_mem_append.mpr ⟨ahead, behind⟩
  · intro all
    exact ⟨⟨s, [], by simp, all, by simp⟩, by simp, by simp⟩

end Trim

theorem trim_margin_iff (s core : Text) :
    trimMargin s = core ↔
      (∃ front back, s = front ++ (core ++ back) ∧
        (∀ c ∈ front, isMargin c = true) ∧ ∀ c ∈ back, isMargin c = true) ∧
      (∀ c ∈ core.head?, isMargin c = false) ∧ ∀ c ∈ core.getLast?, isMargin c = false := by
  rw [trimMargin, trim_by_iff]
  constructor
  · intro trims
    exact ⟨trims.around, trims.starts, trims.ends⟩
  · rintro ⟨around, starts, ends⟩
    exact ⟨around, starts, ends⟩

end OrderOfGrowth.Text
