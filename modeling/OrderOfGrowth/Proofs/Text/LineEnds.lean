import OrderOfGrowth.Proofs.Text.Lines
import OrderOfGrowth.Proofs.Text.Simulation
import OrderOfGrowth.Proofs.Text.Trim
import Mathlib.Data.List.Forall2

/-!
Texts with a carriage return in front of every line feed. Each line has at most a carriage return
more at its end (`lines_with_returns`), and a pattern that takes neither character alone fits where it
fitted before and nowhere else (`occurs_with_returns`).
-/

set_option autoImplicit false

namespace OrderOfGrowth

namespace Text

def withReturns (s : Text) : Text :=
  s.flatMap fun c => if c = '\n' then ['\r', '\n'] else [c]

theorem with_returns_append (s t : Text) : withReturns (s ++ t) = withReturns s ++ withReturns t :=
  List.flatMap_append

theorem with_returns_feed (s : Text) : withReturns ('\n' :: s) = '\r' :: '\n' :: withReturns s :=
  rfl

theorem with_returns_cons (c : Char) (s : Text) (other : c ≠ '\n') :
    withReturns (c :: s) = c :: withReturns s := by
  simp [withReturns, other]

theorem with_returns_self (s : Text) (none : '\n' ∉ s) : withReturns s = s := by
  induction s with
  | nil => rfl
  | cons c s ih =>
      have other : c ≠ '\n' := fun same => none (same ▸ List.mem_cons_self)
      rw [with_returns_cons c s other, ih fun member => none (List.mem_cons_of_mem c member)]

theorem with_returns_all (test : Char → Bool) (s : Text) (both : test '\n' = true → test '\r' = true) :
    (∀ c ∈ withReturns s, test c = true) ↔ ∀ c ∈ s, test c = true := by
  induction s with
  | nil => rfl
  | cons c s ih =>
      by_cases feed : c = '\n'
      · subst feed
        rw [with_returns_feed, List.forall_mem_cons, List.forall_mem_cons, List.forall_mem_cons, ih]
        exact ⟨fun all => all.2, fun all => ⟨both all.1, all⟩⟩
      · rw [with_returns_cons c s feed, List.forall_mem_cons, List.forall_mem_cons, ih]

theorem mem_with_returns (s : Text) (c : Char) (member : c ∈ s) : c ∈ withReturns s := by
  refine List.mem_flatMap.mpr ⟨c, member, ?_⟩
  by_cases feed : c = '\n' <;> simp [feed]

theorem with_returns_head (s : Text) : (withReturns s).head? ≠ some '\n' := by
  cases s with
  | nil => simp [withReturns]
  | cons c s =>
      by_cases feed : c = '\n'
      · simp [feed, with_returns_feed]
      · rw [with_returns_cons c s feed]
        simpa using feed

-- A cut through the longer text is a cut through the text, or it parts a carriage return from its
-- line feed.
theorem with_returns_split (s front back : Text) (split : withReturns s = front ++ back) :
    ∃ w rest, s = w ++ rest ∧
      ((front = withReturns w ∧ back = withReturns rest) ∨
        ∃ later, rest = '\n' :: later ∧ front = withReturns w ++ ['\r'] ∧
          back = '\n' :: withReturns later) := by
  induction s generalizing front with
  | nil =>
      obtain ⟨rfl, rfl⟩ := List.append_eq_nil_iff.mp split.symm
      exact ⟨[], [], rfl, .inl ⟨rfl, rfl⟩⟩
  | cons c s ih =>
      cases front with
      | nil => exact ⟨[], c :: s, rfl, .inl ⟨rfl, split.symm⟩⟩
      | cons d front =>
          by_cases feed : c = '\n'
          · subst feed
            rw [with_returns_feed] at split
            obtain ⟨rfl, behind⟩ := List.cons.inj split
            cases front with
            | nil => exact ⟨[], '\n' :: s, rfl, .inr ⟨s, rfl, rfl, behind.symm⟩⟩
            | cons e front =>
                obtain ⟨rfl, further⟩ := List.cons.inj behind
                obtain ⟨w, rest, rfl, cut⟩ := ih front further
                refine ⟨'\n' :: w, rest, rfl, ?_⟩
                rw [with_returns_feed]
                simpa using cut
          · rw [with_returns_cons c s feed] at split
            obtain ⟨rfl, behind⟩ := List.cons.inj split
            obtain ⟨w, rest, rfl, cut⟩ := ih front behind
            refine ⟨c :: w, rest, rfl, ?_⟩
            rw [with_returns_cons c w feed]
            simpa using cut

theorem trim_margin_nil_iff (s : Text) : trimMargin s = [] ↔ ∀ c ∈ s, isMargin c = true :=
  trim_by_nil_iff isMargin s

theorem trim_margin_append (s margin : Text) (all : ∀ c ∈ margin, isMargin c = true) :
    trimMargin (s ++ margin) = trimMargin s :=
  trim_by_around isMargin [] s margin (List.forall_mem_nil _) all

def EndsAlike (line other : Text) : Prop :=
  other = line ∨ other = line ++ ['\r']

theorem ends_alike_cons (c : Char) (line other : Text) (alike : EndsAlike line other) :
    EndsAlike (c :: line) (c :: other) := by
  rcases alike with rfl | rfl
  · exact .inl rfl
  · exact .inr rfl

theorem trim_margin_ends_alike (line other : Text) (alike : EndsAlike line other) :
    trimMargin other = trimMargin line := by
  rcases alike with rfl | rfl
  · rfl
  · exact trim_margin_append line ['\r'] (List.forall_mem_singleton.mpr rfl)

theorem lines_with_returns (s : Text) :
    List.Forall₂ EndsAlike (lines s) (lines (withReturns s)) := by
  induction s using lines.induct with
  | case1 => exact .nil
  | case2 s ih =>
      rw [with_returns_feed, lines, lines]
      exact .cons (.inl rfl) ih
  | case3 s ih =>
      have returns : ∀ rest, '\r' = '\r' → '\r' :: '\n' :: withReturns s = '\n' :: rest → False := by
        intro rest _ split
        cases split
      have first : withReturns ('\r' :: '\n' :: s) = '\r' :: '\r' :: '\n' :: withReturns s := rfl
      rw [first, lines.eq_4 _ _ (by decide) returns, lines, lines]
      exact .cons (.inr rfl) ih
  | case4 c s plain noEnd none ih =>
      obtain rfl := (lines_nil_iff s).mp none
      rw [with_returns_cons c [] plain]
      exact List.forall₂_same.mpr fun _ _ => .inl rfl
  | case5 c s plain noEnd l ls behind ih =>
      have noEndThere : ∀ rest, c = '\r' → withReturns s = '\n' :: rest → False := by
        intro rest _ split
        exact with_returns_head s (by rw [split]; rfl)
      rw [with_returns_cons c s plain, lines.eq_4 c s plain noEnd, lines.eq_4 c _ plain noEndThere,
        behind]
      rw [behind] at ih
      cases there : lines (withReturns s) with
      | nil =>
          rw [there] at ih
          cases ih
      | cons l' ls' =>
          rw [there] at ih
          obtain ⟨alike, others⟩ := List.forall₂_cons.mp ih
          exact .cons (ends_alike_cons c l l' alike) others

-- A rest of the text and one of the longer text that starts at the same character. Between a
-- carriage return and its line feed the text has only the place in front of the line feed.
def RestsAlike (s t : Text) : Prop :=
  t = withReturns s ∨ ∃ later, s = '\n' :: later ∧ t = '\n' :: withReturns later

end Text

namespace Pattern

open Text (withReturns RestsAlike)

def SparesEnds (test : Char → Bool) : Prop :=
  test '\n' = false ∧ test '\r' = false

instance : DecidablePred SparesEnds :=
  fun test => inferInstanceAs (Decidable (test '\n' = false ∧ test '\r' = false))

def SeesReturns (test : Char → Bool) : Prop :=
  test '\n' = true → test '\r' = true

instance : DecidablePred SeesReturns :=
  fun test => inferInstanceAs (Decidable (test '\n' = true → test '\r' = true))

theorem char_carries_to_returns (test : Char → Bool) (spares : SparesEnds test) :
    Carries RestsAlike (char test) := by
  rintro s t _ rest alike ⟨c, passes, rfl⟩ rfl
  have other : c ≠ '\n' := by
    rintro rfl
    rw [spares.1] at passes
    cases passes
  rcases alike with rfl | ⟨later, split, rfl⟩
  · exact ⟨[c], withReturns rest, ⟨c, passes, rfl⟩, Text.with_returns_cons c rest other, .inl rfl⟩
  · exact absurd (List.cons.inj split).1 other

theorem run_to_returns (test : Char → Bool) (sees : SeesReturns test) (w rest t : Text)
    (alike : RestsAlike (w ++ rest) t) (all : ∀ c ∈ w, test c = true) :
    ∃ v left, (∀ c ∈ v, test c = true) ∧ t = v ++ left ∧ RestsAlike rest left ∧ (v = [] → w = []) := by
  rcases alike with rfl | ⟨later, split, rfl⟩
  · refine ⟨withReturns w, withReturns rest, (Text.with_returns_all test w sees).mpr all,
      Text.with_returns_append w rest, .inl rfl, ?_⟩
    intro none
    rw [List.eq_nil_iff_forall_not_mem] at none ⊢
    exact fun c member => none c (Text.mem_with_returns w c member)
  · cases w with
    | nil => exact ⟨[], _, by simp, rfl, .inr ⟨later, split, rfl⟩, fun _ => rfl⟩
    | cons c w =>
        obtain ⟨rfl, rfl⟩ := List.cons.inj split
        rw [List.forall_mem_cons] at all
        refine ⟨'\n' :: withReturns w, withReturns rest, ?_, ?_, .inl rfl, by simp⟩
        · rw [List.forall_mem_cons]
          exact ⟨all.1, (Text.with_returns_all test w sees).mpr all.2⟩
        · exact congrArg (List.cons '\n') (Text.with_returns_append w rest)

theorem run_carries_to_returns (test : Char → Bool) (sees : SeesReturns test) :
    Carries RestsAlike (run test) := by
  rintro _ t w rest alike all rfl
  obtain ⟨v, left, inside, parted, restAlike, -⟩ := run_to_returns test sees w rest t alike all
  exact ⟨v, left, inside, parted, restAlike⟩

theorem some_run_carries_to_returns (test : Char → Bool) (sees : SeesReturns test) :
    Carries RestsAlike (someRun test) := by
  rintro _ t w rest alike accepted rfl
  obtain ⟨nonempty, all⟩ := (accepts_some_run test w).mp accepted
  obtain ⟨v, left, inside, parted, restAlike, taken⟩ := run_to_returns test sees w rest t alike all
  exact ⟨v, left, (accepts_some_run test v).mpr ⟨fun none => nonempty (taken none), inside⟩, parted,
    restAlike⟩

theorem char_carries_from_returns (test : Char → Bool) (spares : SparesEnds test) :
    Carries (flip RestsAlike) (char test) := by
  rintro t s _ left alike ⟨c, passes, rfl⟩ rfl
  have other : c ≠ '\n' ∧ c ≠ '\r' := by
    constructor <;> rintro rfl
    · simp [spares.1] at passes
    · simp [spares.2] at passes
  rcases alike with whole | ⟨later, -, split⟩
  · cases s with
    | nil => cases whole
    | cons d s =>
        by_cases feed : d = '\n'
        · rw [feed, Text.with_returns_feed] at whole
          exact absurd (List.cons.inj whole).1 other.2
        · rw [Text.with_returns_cons d s feed] at whole
          obtain ⟨rfl, rfl⟩ := List.cons.inj whole
          exact ⟨[c], s, ⟨c, passes, rfl⟩, rfl, .inl rfl⟩
  · exact absurd (List.cons.inj split).1 other.1

theorem run_carries_from_returns (test : Char → Bool) : Carries (flip RestsAlike) (run test) := by
  have whole : ∀ s w left : Text, (∀ c ∈ w, test c = true) → withReturns s = w ++ left →
      ∃ v rest, (∀ c ∈ v, test c = true) ∧ s = v ++ rest ∧ RestsAlike rest left := by
    intro s w left all split
    obtain ⟨v, rest, rfl, ⟨rfl, rfl⟩ | ⟨later, rfl, rfl, rfl⟩⟩ := Text.with_returns_split s w left split
    · exact ⟨v, rest, fun c member => all c (Text.mem_with_returns v c member), rfl, .inl rfl⟩
    · refine ⟨v, '\n' :: later, fun c member => all c ?_, rfl, .inr ⟨later, rfl, rfl⟩⟩
      exact List.mem_append_left _ (Text.mem_with_returns v c member)
  rintro t s w left alike all rfl
  rcases alike with parted | ⟨later, rfl, split⟩
  · exact whole s w left all parted.symm
  · cases w with
    | nil => exact ⟨[], _, by simp, rfl, .inr ⟨later, rfl, split⟩⟩
    | cons c w =>
        obtain ⟨rfl, behind⟩ := List.cons.inj split
        rw [accepts_run, List.forall_mem_cons] at all
        obtain ⟨v, rest, inside, rfl, alike⟩ := whole later w left all.2 behind.symm
        exact ⟨'\n' :: v, rest, by simpa [all.1] using inside, rfl, alike⟩

structure IgnoresReturns (pattern : Pattern) : Prop where
  longer : Carries RestsAlike pattern
  shorter : Carries (flip RestsAlike) pattern

theorem ignores_of_tests (pattern : Pattern) (each : EachTest SparesEnds SeesReturns pattern) :
    IgnoresReturns pattern where
  longer := carries_of_tests _ _ _ char_carries_to_returns run_carries_to_returns pattern each
  shorter :=
    carries_of_tests _ _ _ char_carries_from_returns (fun test _ => run_carries_from_returns test) pattern
      each

theorem ignores_seq (first second : Pattern) (ofFirst : IgnoresReturns first)
    (ofSecond : IgnoresReturns second) : IgnoresReturns (seq first second) where
  longer := carries_seq _ first second ofFirst.longer ofSecond.longer
  shorter := carries_seq _ first second ofFirst.shorter ofSecond.shorter

-- A run that must not be empty could end between a carriage return and its line feed, and would have
-- nothing to take from the shorter text there. What follows it rules that out.
theorem some_run_carries_from_returns (test : Char → Bool) (second : Pattern)
    (ofSecond : Carries (flip RestsAlike) second)
    (starts : ∀ w, Accepts second w → ∃ c behind, w = c :: behind ∧ c ≠ '\n') :
    Carries (flip RestsAlike) (seq (someRun test) second) := by
  rintro t s _ left alike ⟨u, v, firstAccepts, secondAccepts, rfl⟩ rfl
  obtain ⟨nonempty, all⟩ := (accepts_some_run test u).mp firstAccepts
  obtain ⟨c, behind, rfl, other⟩ := starts v secondAccepts
  obtain ⟨w, rest, inside, rfl, restAlike⟩ :=
    run_carries_from_returns test _ s u _ alike all (List.append_assoc u (c :: behind) left)
  have taken : w ≠ [] := by
    rintro rfl
    have kept := List.length_pos_iff.mpr nonempty
    rcases restAlike with whole | ⟨later, -, split⟩
    · rcases alike with same | ⟨later, same, split⟩
      · have sizes := congrArg List.length (same.trans whole.symm)
        simp only [List.length_append] at sizes
        omega
      · rw [List.nil_append] at same
        rw [same, Text.with_returns_feed] at whole
        have sizes := congrArg List.length split
        have shorter := congrArg List.length whole
        simp only [List.length_append, List.length_cons] at sizes shorter
        omega
    · exact other (List.cons.inj split).1
  obtain ⟨w', rest', secondTakes, rfl, ends⟩ := ofSecond _ rest (c :: behind) left restAlike secondAccepts rfl
  exact ⟨w ++ w', rest', ⟨w, w', (accepts_some_run test w).mpr ⟨taken, inside⟩, secondTakes, rfl⟩, by simp,
    ends⟩

theorem ignores_some_run (test : Char → Bool) (second : Pattern) (sees : SeesReturns test)
    (ofSecond : IgnoresReturns second)
    (starts : ∀ w, Accepts second w → ∃ c behind, w = c :: behind ∧ c ≠ '\n') :
    IgnoresReturns (seq (someRun test) second) where
  longer := carries_seq _ _ second (some_run_carries_to_returns test sees) ofSecond.longer
  shorter := some_run_carries_from_returns test second ofSecond.shorter starts

theorem fits_with_returns (pattern : Pattern) (ignores : IgnoresReturns pattern) (s : Text) :
    Fits pattern (withReturns s) ↔ Fits pattern s := by
  constructor
  · exact fits_carried _ pattern ignores.shorter (withReturns s) s (.inl rfl)
  · exact fits_carried _ pattern ignores.longer s (withReturns s) (.inl rfl)

theorem occurs_with_returns (pattern : Pattern) (ignores : IgnoresReturns pattern) (s : Text) :
    occurs pattern (withReturns s) = occurs pattern s := by
  rw [Bool.eq_iff_iff]
  constructor
  · apply occurs_carried _ pattern ignores.shorter
    rintro suffix ⟨front, split⟩
    obtain ⟨w, rest, rfl, ⟨-, rfl⟩ | ⟨later, rfl, -, rfl⟩⟩ :=
      Text.with_returns_split s front suffix split.symm
    · exact ⟨rest, List.suffix_append w rest, .inl rfl⟩
    · exact ⟨'\n' :: later, List.suffix_append w _, .inr ⟨later, rfl, rfl⟩⟩
  · apply occurs_carried _ pattern ignores.longer
    rintro suffix ⟨front, rfl⟩
    exact ⟨withReturns suffix, ⟨withReturns front, (Text.with_returns_append front suffix).symm⟩, .inl rfl⟩

end Pattern

end OrderOfGrowth
