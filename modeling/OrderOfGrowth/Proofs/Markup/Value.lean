import OrderOfGrowth.Markup.Escape

/-!
Escaped values. They have no bare angle and no quote, so they stand in text and inside quotes alike
(`escape_value_unmarked`), and one pass reads the value back, whatever comes behind it
(`read_value_escape_append`).
-/

set_option autoImplicit false

namespace OrderOfGrowth.Markup

def marks : List Char :=
  ['<', '>', '"', '\'']

def readValue : Text → Text
  | '&' :: 'q' :: 'u' :: 'o' :: 't' :: ';' :: s => '"' :: readValue s
  | '&' :: '#' :: 'x' :: '2' :: '7' :: ';' :: s => '\'' :: readValue s
  | '&' :: '#' :: 'x' :: '2' :: 'f' :: ';' :: s => '/' :: readValue s
  | '&' :: 'a' :: 'm' :: 'p' :: ';' :: s => '&' :: readValue s
  | '&' :: 'l' :: 't' :: ';' :: s => '<' :: readValue s
  | '&' :: 'g' :: 't' :: ';' :: s => '>' :: readValue s
  | c :: s => c :: readValue s
  | [] => []

-- A text that can stand for a value anywhere in a page.
structure StandsFor (s value : Text) : Prop where
  unmarked : ∀ mark ∈ marks, mark ∉ s
  reads : readValue s = value

theorem none_of_all (forbidden s : Text) (plain : s.all (!forbidden.contains ·) = true) :
    ∀ mark ∈ forbidden, mark ∉ s := by
  intro mark member inside
  have absent := List.all_eq_true.mp plain mark inside
  simp [member] at absent

theorem escape_value_char_cases (c : Char) :
    (c ≠ '&' ∧ c ∉ marks ∧ escapeValueChar c = [c]) ∨
      ((∀ mark ∈ marks, mark ∉ escapeValueChar c) ∧
        ∀ s, readValue (escapeValueChar c ++ s) = c :: readValue s) := by
  by_cases special : c ∈ ['"', '\'', '/', '&', '<', '>']
  · right
    simp only [List.mem_cons, List.not_mem_nil, or_false] at special
    rcases special with rfl | rfl | rfl | rfl | rfl | rfl <;>
      exact ⟨none_of_all marks _ (by decide), fun _ => rfl⟩
  · left
    simp only [List.mem_cons, List.not_mem_nil, or_false, not_or] at special
    obtain ⟨quote, apostrophe, slash, ampersand, less, greater⟩ := special
    refine ⟨ampersand, by simp [marks, quote, apostrophe, less, greater], ?_⟩
    simp [escapeValueChar, quote, apostrophe, slash, ampersand, less, greater]

theorem read_value_cons (c : Char) (s : Text) (plain : c ≠ '&') :
    readValue (c :: s) = c :: readValue s := by
  conv =>
    lhs
    unfold readValue
  split <;> simp_all

theorem read_value_plain (s rest : Text) (plain : '&' ∉ s) :
    readValue (s ++ rest) = s ++ readValue rest := by
  induction s with
  | nil => rfl
  | cons c s ih =>
      have other : c ≠ '&' := fun same => plain (same ▸ List.mem_cons_self)
      rw [List.cons_append, read_value_cons c _ other, ih fun member => plain (List.mem_cons_of_mem c member)]
      rfl

theorem escape_value_cons (c : Char) (s : Text) :
    escapeValue (c :: s) = escapeValueChar c ++ escapeValue s :=
  List.flatMap_cons

theorem read_value_escape_append (s rest : Text) :
    readValue (escapeValue s ++ rest) = s ++ readValue rest := by
  induction s with
  | nil => rfl
  | cons c s ih =>
      rw [escape_value_cons, List.append_assoc, List.cons_append]
      rcases escape_value_char_cases c with ⟨ampersand, -, same⟩ | ⟨-, reads⟩
      · rw [same, List.singleton_append, read_value_cons c _ ampersand, ih]
      · rw [reads, ih]

theorem escape_value_unmarked (s : Text) : ∀ mark ∈ marks, mark ∉ escapeValue s := by
  intro mark member inside
  obtain ⟨c, -, written⟩ := List.mem_flatMap.mp inside
  rcases escape_value_char_cases c with ⟨-, unmarked, same⟩ | ⟨unmarked, -⟩
  · rw [same, List.mem_singleton] at written
    exact unmarked (written ▸ member)
  · exact unmarked mark member written

-- A value, and behind it some text that needs no escaping.
theorem escape_value_append_stands (value rest : Text) (plain : ∀ mark ∈ '&' :: marks, mark ∉ rest) :
    StandsFor (escapeValue value ++ rest) (value ++ rest) where
  unmarked mark member inside := by
    rcases List.mem_append.mp inside with front | back
    · exact escape_value_unmarked value mark member front
    · exact plain mark (List.mem_cons_of_mem _ member) back
  reads := by
    have same := read_value_plain rest [] (plain '&' List.mem_cons_self)
    rw [read_value_escape_append]
    simpa [readValue] using same

theorem plain_stands (s : Text) (plain : ∀ mark ∈ '&' :: marks, mark ∉ s) : StandsFor s s :=
  escape_value_append_stands [] s plain

theorem escape_value_stands (value : Text) : StandsFor (escapeValue value) value := by
  have stands := escape_value_append_stands value [] (by simp)
  rwa [List.append_nil, List.append_nil] at stands

end OrderOfGrowth.Markup
