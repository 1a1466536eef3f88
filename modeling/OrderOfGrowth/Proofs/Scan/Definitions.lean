import OrderOfGrowth.Proofs.Text.Acceptance
import OrderOfGrowth.Proofs.Text.Search
import OrderOfGrowth.Scan.Recursion
import Mathlib

/-!
Definitions, said without a search: a whole word, parameters and a body. The name that the scan
captures is the word of the leftmost definition (`defined_name_iff`).
-/

set_option autoImplicit false

namespace OrderOfGrowth.Scan

open Text (isNameChar isWhiteSpace)

-- What follows the word of a definition: parameters that end at the first closing parenthesis,
-- and a body with a closing brace anywhere behind its opening one.
def OpensBody (s : Text) : Prop :=
  ∃ gap parameters space body rest : Text,
    (∀ c ∈ gap, isWhiteSpace c = true) ∧ ')' ∉ parameters ∧ (∀ c ∈ space, isWhiteSpace c = true) ∧
      s = gap ++ '(' :: (parameters ++ ')' :: (space ++ '{' :: (body ++ '}' :: rest)))

structure WordRun (before word after : Text) : Prop where
  nonempty : word ≠ []
  inside : ∀ c ∈ word, isNameChar c = true
  left : ∀ c ∈ before.getLast?, isNameChar c = false
  right : ∀ c ∈ after.head?, isNameChar c = false

def DefinesAt (source : Text) (position : Nat) (name : Text) : Prop :=
  ∃ before after, source = before ++ (name ++ after) ∧ before.length = position ∧
    WordRun before name after ∧ OpensBody after

structure LeftmostDefinition (source : Text) (position : Nat) (name : Text) : Prop where
  defines : DefinesAt source position name
  leftmost : ∀ earlier other, earlier < position → ¬ DefinesAt source earlier other

theorem name_char_code (c : Char) (inName : isNameChar c = true) :
    (48 ≤ c.toNat ∧ c.toNat ≤ 57) ∨ (65 ≤ c.toNat ∧ c.toNat ≤ 90) ∨
      (97 ≤ c.toNat ∧ c.toNat ≤ 122) ∨ c.toNat = 95 := by
  simp only [isNameChar, Char.isAlphanum, Char.isAlpha, Char.isUpper, Char.isLower, Char.isDigit,
    Bool.or_eq_true, Bool.and_eq_true, decide_eq_true_eq, beq_iff_eq, ge_iff_le] at inName
  change (((65 ≤ c.toNat ∧ c.toNat ≤ 90) ∨ (97 ≤ c.toNat ∧ c.toNat ≤ 122)) ∨
    (48 ≤ c.toNat ∧ c.toNat ≤ 57)) ∨ c = '_' at inName
  rcases inName with (letter | digit) | rfl
  · omega
  · omega
  · decide

theorem name_not_white (c : Char) (inName : isNameChar c = true) : isWhiteSpace c = false := by
  have code := name_char_code c inName
  rw [Bool.eq_false_iff]
  intro white
  simp only [isWhiteSpace, Bool.or_eq_true, Bool.and_eq_true, decide_eq_true_eq, beq_iff_eq] at white
  omega

theorem not_inside (test : Char → Bool) (w : Text) (c : Char) (inside : ∀ d ∈ w, test d = true)
    (fails : test c = false) : c ∉ w := by
  intro member
  have passes := inside c member
  rw [fails] at passes
  cases passes

theorem fits_body_iff (s : Text) : bodyPattern.Fits s ↔ OpensBody s := by
  simp only [bodyPattern, Pattern.fits_sequence_cons, Pattern.fits_sequence_nil,
    Pattern.accepts_white, Pattern.accepts_except, Pattern.accepts_run, Pattern.accepts_one,
    exists_eq_left, List.cons_append, List.nil_append]
  constructor
  · intro parted
    obtain ⟨gap, white, _, rfl, _, rfl, parameters, closed, _, rfl, _, rfl, space, blank, _, rfl, _,
      rfl, body, _, _, rfl, rest, rfl, _⟩ := parted
    exact ⟨gap, parameters, space, body, rest, white, closed, blank, rfl⟩
  · intro opens
    obtain ⟨gap, parameters, space, body, rest, white, closed, blank, rfl⟩ := opens
    exact ⟨gap, white, _, rfl, _, rfl, parameters, closed, _, rfl, _, rfl, space, blank, _, rfl, _,
      rfl, body, fun _ _ => trivial, _, rfl, rest, rfl, trivial⟩

theorem opens_body_head (s : Text) (opens : OpensBody s) : ∀ c ∈ s.head?, isNameChar c = false := by
  obtain ⟨gap, parameters, space, body, rest, white, -, -, rfl⟩ := opens
  intro c first
  cases gap with
  | nil =>
      obtain rfl : '(' = c := by simpa using first
      decide
  | cons d gap =>
      obtain rfl : d = c := by simpa using first
      have blank := white d List.mem_cons_self
      rw [Bool.eq_false_iff]
      intro inName
      rw [name_not_white d inName] at blank
      cases blank

theorem longest_run_unique (test : Char → Bool) (first second left right : Text)
    (firstInside : ∀ c ∈ first, test c = true) (leftEnds : ∀ c ∈ left.head?, test c = false)
    (secondInside : ∀ c ∈ second, test c = true) (rightEnds : ∀ c ∈ right.head?, test c = false)
    (same : first ++ left = second ++ right) : first = second := by
  have taken : ∀ word after : Text, (∀ c ∈ word, test c = true) →
      (∀ c ∈ after.head?, test c = false) → (word ++ after).takeWhile test = word := by
    intro word after inside ends
    rw [List.takeWhile_append_of_pos inside]
    cases after with
    | nil => simp
    | cons c after => simp [ends c rfl]
  rw [← taken first left firstInside leftEnds, same, taken second right secondInside rightEnds]

def definition? (s : Text) : Option Text :=
  namePattern.captured? bodyPattern s

theorem definition_some_iff (s name : Text) :
    definition? s = some name ↔
      name ≠ [] ∧ (∀ c ∈ name, isNameChar c = true) ∧ ∃ after, s = name ++ after ∧ OpensBody after := by
  constructor
  · intro found
    obtain ⟨after, accepted, split, fits⟩ := Pattern.captured_some _ _ _ _ found
    obtain ⟨nonempty, inside⟩ := (Pattern.accepts_some_run _ _).mp accepted
    exact ⟨nonempty, inside, after, split, (fits_body_iff after).mp fits⟩
  · intro shape
    obtain ⟨nonempty, inside, after, rfl, opens⟩ := shape
    cases found : definition? (name ++ after) with
    | none =>
        have absent := (Pattern.captured_none_iff _ _ _).mp found name after
          ((Pattern.accepts_some_run _ _).mpr ⟨nonempty, inside⟩) rfl
        exact absurd ((fits_body_iff after).mpr opens) absent
    | some other =>
        obtain ⟨rest, accepted, split, fits⟩ := Pattern.captured_some _ _ _ _ found
        have otherInside := ((Pattern.accepts_some_run _ _).mp accepted).2
        have otherOpens := (fits_body_iff rest).mp fits
        rw [longest_run_unique isNameChar name other after rest inside (opens_body_head after opens) otherInside
          (opens_body_head rest otherOpens) split]

theorem definition_outside_name (c : Char) (s : Text) (outside : isNameChar c = false) :
    definition? (c :: s) = none := by
  cases found : definition? (c :: s) with
  | none => rfl
  | some name =>
      obtain ⟨nonempty, inside, after, split, -⟩ := (definition_some_iff _ _).mp found
      cases name with
      | nil => exact absurd rfl nonempty
      | cons d name =>
          obtain ⟨rfl, -⟩ := List.cons.inj split
          have inName := inside c List.mem_cons_self
          rw [outside] at inName
          cases inName

theorem whole_word_defines (name after : Text) (nonempty : name ≠ [])
    (inside : ∀ c ∈ name, isNameChar c = true) (opens : OpensBody after) :
    definition? (name ++ after) = some name :=
  (definition_some_iff _ _).mpr ⟨nonempty, inside, after, rfl, opens⟩

-- A search that fails inside a word fails on the whole word: the leftmost answer is a whole word.
theorem defined_name_leftmost (source name : Text) (found : definedName? source = some name) :
    ∃ position, LeftmostDefinition source position name := by
  obtain ⟨before, suffix, rfl, here, leftmost⟩ :=
    (Text.first_suffix_some definition? source name).mp found
  obtain ⟨nonempty, inside, after, rfl, opens⟩ := (definition_some_iff suffix name).mp here
  have left : ∀ c ∈ before.getLast?, isNameChar c = false := by
    intro c last
    obtain ⟨front, rfl⟩ := List.getLast?_eq_some_iff.mp last
    rw [Bool.eq_false_iff]
    intro inName
    have longer := whole_word_defines (c :: name) after (by simp) (by simpa [inName] using inside) opens
    have absent := leftmost front (c :: (name ++ after)) (by simp) (by simp)
    exact Option.some_ne_none _ (longer.symm.trans absent)
  refine ⟨before.length, ⟨before, after, rfl, rfl, ⟨nonempty, inside, left, opens_body_head after opens⟩,
    opens⟩, ?_⟩
  intro earlier other shorter defines
  obtain ⟨front, rest, split, rfl, run, otherOpens⟩ := defines
  have present := whole_word_defines other rest run.nonempty run.inside otherOpens
  have absent := leftmost front (other ++ rest) split shorter
  exact Option.some_ne_none _ (present.symm.trans absent)

theorem defined_name_none_iff (source : Text) :
    definedName? source = none ↔ ∀ position name, ¬ DefinesAt source position name := by
  constructor
  · intro absent position name defines
    obtain ⟨before, after, rfl, -, run, opens⟩ := defines
    have present := whole_word_defines name after run.nonempty run.inside opens
    have none := (Text.first_suffix_none definition? _).mp absent before (name ++ after) rfl
    exact Option.some_ne_none _ (present.symm.trans none)
  · intro nowhere
    cases found : definedName? source with
    | none => rfl
    | some name =>
        obtain ⟨position, leftmost⟩ := defined_name_leftmost source name found
        exact absurd leftmost.defines (nowhere position name)

theorem defines_at_unique (source : Text) (position : Nat) (name other : Text)
    (defines : DefinesAt source position name) (otherDefines : DefinesAt source position other) :
    name = other := by
  obtain ⟨before, after, rfl, rfl, run, -⟩ := defines
  obtain ⟨front, rest, split, sameLength, otherRun, -⟩ := otherDefines
  have behind := (List.append_inj split sameLength.symm).2
  exact longest_run_unique isNameChar name other after rest run.inside run.right otherRun.inside otherRun.right
    behind

-- The captured name is the whole word of the leftmost definition, and there is a captured name
-- whenever there is a definition.
theorem defined_name_iff (source name : Text) :
    definedName? source = some name ↔ ∃ position, LeftmostDefinition source position name := by
  constructor
  · exact defined_name_leftmost source name
  · intro exists_leftmost
    obtain ⟨position, definition⟩ := exists_leftmost
    cases found : definedName? source with
    | none => exact absurd definition.defines ((defined_name_none_iff source).mp found position name)
    | some other =>
        obtain ⟨place, otherDefinition⟩ := defined_name_leftmost source other found
        have notBefore : ¬ place < position := fun earlier =>
          definition.leftmost place other earlier otherDefinition.defines
        have notBehind : ¬ position < place := fun earlier =>
          otherDefinition.leftmost position name earlier definition.defines
        obtain rfl : place = position := by omega
        rw [defines_at_unique source place name other definition.defines otherDefinition.defines]

end OrderOfGrowth.Scan
