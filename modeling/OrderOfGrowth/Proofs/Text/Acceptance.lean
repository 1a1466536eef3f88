import OrderOfGrowth.Text.Pattern
import Mathlib.Data.List.Infix

/-!
What a pattern accepts, said without the order of its ways. A way takes exactly a text that the
pattern accepts (`mem_ways`), and a pattern occurs in a source exactly when a text that it accepts
stands there (`occurs_iff`).
-/

set_option autoImplicit false

namespace OrderOfGrowth.Pattern

def Accepts : Pattern → Text → Prop
  | empty, w => w = []
  | char test, w => ∃ c, test c = true ∧ w = [c]
  | run test, w => ∀ c ∈ w, test c = true
  | shortRun test, w => ∀ c ∈ w, test c = true
  | seq first second, w => ∃ u v, Accepts first u ∧ Accepts second v ∧ w = u ++ v
  | alt left right, w => Accepts left w ∨ Accepts right w
  | many body, w => ∃ parts : List Text, (∀ u ∈ parts, u ≠ [] ∧ Accepts body u) ∧ w = parts.flatten

theorem run_split_cons (test : Char → Bool) (c : Char) (s rest : Text) :
    (∃ w : Text, (∀ d ∈ w, test d = true) ∧ c :: s = w ++ rest) ↔
      rest = c :: s ∨ (test c = true ∧ ∃ w : Text, (∀ d ∈ w, test d = true) ∧ s = w ++ rest) := by
  constructor
  · intro shape
    obtain ⟨w, all, split⟩ := shape
    cases w with
    | nil => exact .inl split.symm
    | cons d w =>
        obtain ⟨rfl, rfl⟩ := List.cons.inj split
        right
        exact ⟨all c List.mem_cons_self, w, fun e member => all e (List.mem_cons_of_mem _ member), rfl⟩
  · intro shape
    obtain rfl | ⟨passes, w, all, rfl⟩ := shape
    · exact ⟨[], by simp, rfl⟩
    · exact ⟨c :: w, by simpa [passes] using all, rfl⟩

theorem mem_run_ways (test : Char → Bool) (shorter : List Text) (s rest : Text) :
    rest ∈ runWays test shorter s ↔
      rest ∈ shorter ∨ ∃ w : Text, (∀ c ∈ w, test c = true) ∧ s = w ++ rest := by
  induction s generalizing shorter with
  | nil => simp [runWays, or_comm]
  | cons c s ih =>
      rw [run_split_cons]
      by_cases passes : test c
      · rw [runWays, if_pos passes, ih, List.mem_cons, or_assoc, or_left_comm]
        simp [passes]
      · rw [runWays, if_neg passes, List.mem_cons, or_comm]
        simp [passes]

theorem mem_short_run_ways (test : Char → Bool) (s rest : Text) :
    rest ∈ shortRunWays test s ↔ ∃ w : Text, (∀ c ∈ w, test c = true) ∧ s = w ++ rest := by
  induction s with
  | nil => simp [shortRunWays]
  | cons c s ih =>
      rw [run_split_cons, shortRunWays, List.mem_cons]
      by_cases passes : test c
      · rw [if_pos passes, ih]
        simp [passes]
      · simp [passes]

-- A turn that takes nothing changes nothing, so the parts can be taken to be nonempty.
theorem many_ways_sound (step : Text → List Text) (part : Text → Prop)
    (stepExact : ∀ s rest, rest ∈ step s ↔ ∃ w, part w ∧ s = w ++ rest)
    (turns : Nat) (s rest : Text) (member : rest ∈ manyWays step turns s) :
    ∃ parts : List Text, (∀ u ∈ parts, u ≠ [] ∧ part u) ∧ s = parts.flatten ++ rest := by
  induction turns generalizing s with
  | zero =>
      rw [manyWays, List.mem_singleton] at member
      exact ⟨[], by simp, member.symm⟩
  | succ turns ih =>
      rw [manyWays, List.mem_append, List.mem_singleton, List.mem_flatMap] at member
      obtain ⟨middle, first, later⟩ | rfl := member
      · obtain ⟨w, accepted, rfl⟩ := (stepExact s middle).mp first
        obtain ⟨parts, all, rfl⟩ := ih middle later
        by_cases nothing : w = []
        · exact ⟨parts, all, by simp [nothing]⟩
        · exact ⟨w :: parts, by simpa [nothing, accepted] using all, by simp⟩
      · exact ⟨[], by simp, rfl⟩

-- There are no more nonempty parts than characters, so the number of turns is no restriction.
theorem many_ways_complete (step : Text → List Text) (part : Text → Prop)
    (stepExact : ∀ s rest, rest ∈ step s ↔ ∃ w, part w ∧ s = w ++ rest)
    (parts : List Text) (all : ∀ u ∈ parts, u ≠ [] ∧ part u) (turns : Nat) (rest : Text)
    (enough : parts.flatten.length ≤ turns) :
    rest ∈ manyWays step turns (parts.flatten ++ rest) := by
  induction parts generalizing turns with
  | nil => cases turns <;> simp [manyWays]
  | cons u parts ih =>
      obtain ⟨nonempty, accepted⟩ := all u List.mem_cons_self
      have taken := List.length_pos_iff.mpr nonempty
      rw [List.flatten_cons, List.length_append] at enough
      cases turns with
      | zero => omega
      | succ turns =>
          rw [manyWays, List.mem_append, List.mem_flatMap]
          left
          refine ⟨parts.flatten ++ rest, (stepExact _ _).mpr ⟨u, accepted, by simp⟩, ?_⟩
          exact ih (fun v member => all v (List.mem_cons_of_mem _ member)) turns (by omega)

theorem mem_many_ways (step : Text → List Text) (part : Text → Prop)
    (stepExact : ∀ s rest, rest ∈ step s ↔ ∃ w, part w ∧ s = w ++ rest)
    (turns : Nat) (s rest : Text) (enough : s.length ≤ turns) :
    rest ∈ manyWays step turns s ↔
      ∃ parts : List Text, (∀ u ∈ parts, u ≠ [] ∧ part u) ∧ s = parts.flatten ++ rest := by
  constructor
  · exact many_ways_sound step part stepExact turns s rest
  · intro shape
    obtain ⟨parts, all, rfl⟩ := shape
    rw [List.length_append] at enough
    exact many_ways_complete step part stepExact parts all turns rest (by omega)

theorem mem_ways (pattern : Pattern) (s rest : Text) :
    rest ∈ ways pattern s ↔ ∃ w, Accepts pattern w ∧ s = w ++ rest := by
  induction pattern generalizing s rest with
  | empty =>
      simp only [ways, Accepts, List.mem_singleton, exists_eq_left, List.nil_append]
      exact eq_comm
  | char test =>
      cases s with
      | nil => simp [ways, Accepts]
      | cons c s =>
          rw [ways]
          constructor
          · intro member
            by_cases passes : test c
            · rw [if_pos passes, List.mem_singleton] at member
              subst member
              exact ⟨[c], ⟨c, passes, rfl⟩, rfl⟩
            · simp [passes] at member
          · intro shape
            obtain ⟨w, ⟨d, passes, rfl⟩, split⟩ := shape
            obtain ⟨rfl, rfl⟩ := List.cons.inj split
            simp [passes]
  | run test => simp [ways, Accepts, mem_run_ways]
  | shortRun test => simp [ways, Accepts, mem_short_run_ways]
  | seq first second ihFirst ihSecond =>
      rw [ways, List.mem_flatMap]
      constructor
      · intro shape
        obtain ⟨middle, taken, left⟩ := shape
        obtain ⟨u, firstAccepts, rfl⟩ := (ihFirst s middle).mp taken
        obtain ⟨v, secondAccepts, rfl⟩ := (ihSecond middle rest).mp left
        exact ⟨u ++ v, ⟨u, v, firstAccepts, secondAccepts, rfl⟩, by simp⟩
      · intro shape
        obtain ⟨w, ⟨u, v, firstAccepts, secondAccepts, rfl⟩, rfl⟩ := shape
        exact ⟨v ++ rest, (ihFirst _ _).mpr ⟨u, firstAccepts, by simp⟩,
          (ihSecond _ _).mpr ⟨v, secondAccepts, rfl⟩⟩
  | alt left right ihLeft ihRight =>
      simp only [ways, Accepts, List.mem_append, ihLeft, ihRight, or_and_right, exists_or]
  | many body ih =>
      rw [ways, mem_many_ways (ways body) (Accepts body) ih s.length s rest (Nat.le_refl _)]
      constructor
      · intro shape
        obtain ⟨parts, all, split⟩ := shape
        exact ⟨parts.flatten, ⟨parts, all, rfl⟩, split⟩
      · intro shape
        obtain ⟨w, ⟨parts, all, rfl⟩, split⟩ := shape
        exact ⟨parts, all, split⟩

def Fits (pattern : Pattern) (s : Text) : Prop :=
  ∃ w rest, Accepts pattern w ∧ s = w ++ rest

theorem ways_nil_iff (pattern : Pattern) (s : Text) : ways pattern s = [] ↔ ¬ Fits pattern s := by
  rw [List.eq_nil_iff_forall_not_mem]
  constructor
  · intro none fits
    obtain ⟨w, rest, accepted, split⟩ := fits
    exact none rest ((mem_ways pattern s rest).mpr ⟨w, accepted, split⟩)
  · intro unfit rest way
    obtain ⟨w, accepted, split⟩ := (mem_ways pattern s rest).mp way
    exact unfit ⟨w, rest, accepted, split⟩

theorem rest_some (pattern : Pattern) (s rest : Text) (found : rest? pattern s = some rest) :
    ∃ w, Accepts pattern w ∧ s = w ++ rest :=
  (mem_ways pattern s rest).mp (List.mem_of_head? found)

theorem rest_none_iff (pattern : Pattern) (s : Text) :
    rest? pattern s = none ↔ ¬ Fits pattern s := by
  rw [rest?, List.head?_eq_none_iff, ways_nil_iff]

theorem captured_some (first second : Pattern) (s name : Text)
    (found : captured? first second s = some name) :
    ∃ after, Accepts first name ∧ s = name ++ after ∧ Fits second after := by
  obtain ⟨after, way, kept⟩ := List.exists_of_findSome?_eq_some found
  obtain ⟨w, accepted, rfl⟩ := (mem_ways first s after).mp way
  by_cases unfit : ways second after = []
  · simp [unfit] at kept
  · rw [if_neg unfit, Option.some.injEq] at kept
    have same : w = name := by simpa using kept
    subst same
    exact ⟨after, accepted, rfl, not_not.mp (mt (ways_nil_iff second after).mpr unfit)⟩

theorem captured_none_iff (first second : Pattern) (s : Text) :
    captured? first second s = none ↔
      ∀ name after, Accepts first name → s = name ++ after → ¬ Fits second after := by
  rw [captured?, List.findSome?_eq_none_iff]
  constructor
  · intro absent name after accepted split
    have none := absent after ((mem_ways first s after).mpr ⟨name, accepted, split⟩)
    rw [ite_eq_left_iff] at none
    rw [← ways_nil_iff]
    exact not_not.mp fun fits => Option.some_ne_none _ (none fits)
  · intro unfit after way
    obtain ⟨name, accepted, split⟩ := (mem_ways first s after).mp way
    rw [if_pos ((ways_nil_iff second after).mpr (unfit name after accepted split))]

@[simp]
theorem accepts_empty (w : Text) : Accepts empty w ↔ w = [] :=
  Iff.rfl

@[simp]
theorem accepts_one (c : Char) (w : Text) : Accepts (one c) w ↔ w = [c] := by
  simp [one, Accepts]

@[simp]
theorem accepts_run (test : Char → Bool) (w : Text) :
    Accepts (run test) w ↔ ∀ c ∈ w, test c = true :=
  Iff.rfl

@[simp]
theorem accepts_white (w : Text) : Accepts white w ↔ ∀ c ∈ w, Text.isWhiteSpace c = true :=
  Iff.rfl

theorem all_other_iff (c : Char) (w : Text) : (∀ d ∈ w, (d != c) = true) ↔ c ∉ w := by
  simp only [bne_iff_ne, List.forall_mem_ne']

@[simp]
theorem accepts_except (c : Char) (w : Text) : Accepts (except c) w ↔ c ∉ w := by
  rw [except, accepts_run, all_other_iff]

@[simp]
theorem accepts_sequence_nil (w : Text) : Accepts (sequence []) w ↔ w = [] :=
  Iff.rfl

@[simp]
theorem accepts_sequence_cons (part : Pattern) (parts : List Pattern) (w : Text) :
    Accepts (sequence (part :: parts)) w ↔
      ∃ u v, Accepts part u ∧ Accepts (sequence parts) v ∧ w = u ++ v :=
  Iff.rfl

@[simp]
theorem accepts_text (s w : Text) : Accepts (text s) w ↔ w = s := by
  induction s generalizing w with
  | nil => exact Iff.rfl
  | cons c s ih =>
      rw [text, List.map_cons, accepts_sequence_cons]
      constructor
      · intro shape
        obtain ⟨u, v, head, tail, rfl⟩ := shape
        rw [(accepts_one c u).mp head, (ih v).mp tail]
        rfl
      · rintro rfl
        exact ⟨[c], s, (accepts_one c [c]).mpr rfl, (ih s).mpr rfl, rfl⟩

theorem accepts_some_run (test : Char → Bool) (w : Text) :
    Accepts (someRun test) w ↔ w ≠ [] ∧ ∀ c ∈ w, test c = true := by
  constructor
  · intro shape
    obtain ⟨u, v, ⟨c, passes, rfl⟩, all, rfl⟩ := shape
    have behind := (accepts_run test v).mp all
    exact ⟨by simp, by simpa [passes] using behind⟩
  · intro shape
    obtain ⟨nonempty, all⟩ := shape
    cases w with
    | nil => exact absurd rfl nonempty
    | cons c w =>
        exact ⟨[c], w, ⟨c, all c List.mem_cons_self, rfl⟩,
          fun d member => all d (List.mem_cons_of_mem _ member), rfl⟩

@[simp]
theorem accepts_optional (body : Pattern) (w : Text) :
    Accepts (optional body) w ↔ Accepts body w ∨ w = [] :=
  Iff.rfl

@[simp]
theorem fits_sequence_nil (s : Text) : Fits (sequence []) s :=
  ⟨[], s, rfl, rfl⟩

theorem fits_sequence_cons (part : Pattern) (parts : List Pattern) (s : Text) :
    Fits (sequence (part :: parts)) s ↔
      ∃ u, Accepts part u ∧ ∃ after, s = u ++ after ∧ Fits (sequence parts) after := by
  constructor
  · intro fits
    obtain ⟨_, rest, ⟨u, v, first, later, rfl⟩, rfl⟩ := fits
    exact ⟨u, first, v ++ rest, by simp, v, rest, later, rfl⟩
  · intro parted
    obtain ⟨u, first, _, rfl, v, rest, later, rfl⟩ := parted
    exact ⟨u ++ v, rest, ⟨u, v, first, later, rfl⟩, by simp⟩

theorem accepts_sequence_append (parts more : List Pattern) (w : Text) :
    Accepts (sequence (parts ++ more)) w ↔
      ∃ u v, Accepts (sequence parts) u ∧ Accepts (sequence more) v ∧ w = u ++ v := by
  induction parts generalizing w with
  | nil => simp
  | cons part parts ih =>
      rw [List.cons_append, accepts_sequence_cons]
      constructor
      · intro parted
        obtain ⟨first, _, accepted, later, rfl⟩ := parted
        obtain ⟨u, v, taken, rest, rfl⟩ := (ih _).mp later
        exact ⟨first ++ u, v, ⟨first, u, accepted, taken, rfl⟩, rest, by simp⟩
      · intro parted
        obtain ⟨_, v, ⟨first, u, accepted, taken, rfl⟩, rest, rfl⟩ := parted
        exact ⟨first, u ++ v, accepted, (ih _).mpr ⟨u, v, taken, rest, rfl⟩, by simp⟩

theorem fits_sequence_append (parts more : List Pattern) (s : Text) :
    Fits (sequence (parts ++ more)) s ↔
      ∃ u, Accepts (sequence parts) u ∧ ∃ after, s = u ++ after ∧ Fits (sequence more) after := by
  constructor
  · intro fits
    obtain ⟨w, rest, accepted, rfl⟩ := fits
    obtain ⟨u, v, first, later, rfl⟩ := (accepts_sequence_append parts more w).mp accepted
    exact ⟨u, first, v ++ rest, by simp, v, rest, later, rfl⟩
  · intro parted
    obtain ⟨u, first, _, rfl, v, rest, later, rfl⟩ := parted
    exact ⟨u ++ v, rest, (accepts_sequence_append parts more _).mpr ⟨u, v, first, later, rfl⟩, by simp⟩

-- The tables hold, of every suffix, whether some way leaves a suffix with the property `good`.
theorem char_table_tails (test : Char → Bool) (s : Text) (good : Text → Bool) :
    charTable test s (s.tails.map good) =
      s.tails.map fun suffix => (ways (char test) suffix).any good := by
  induction s with
  | nil => rfl
  | cons c s ih =>
      rw [List.tails_cons, List.map_cons, List.map_cons, charTable, ih]
      congr 1
      cases s <;> by_cases passes : test c <;> simp [ways, passes]

theorem run_table_tails (test : Char → Bool) (s : Text) (good : Text → Bool) :
    runTable test s (s.tails.map good) =
      s.tails.map fun suffix => (shortRunWays test suffix).any good := by
  induction s with
  | nil => simp [runTable, shortRunWays]
  | cons c s ih =>
      rw [List.tails_cons, List.map_cons, List.map_cons, runTable, ih]
      congr 1
      cases s <;> by_cases passes : test c <;> simp [shortRunWays, passes]

theorem any_eq_of_mem_iff (good : Text → Bool) (left right : List Text)
    (same : ∀ s, s ∈ left ↔ s ∈ right) : left.any good = right.any good := by
  rw [Bool.eq_iff_iff, List.any_eq_true, List.any_eq_true]
  simp only [same]

theorem run_ways_any (test : Char → Bool) (s : Text) (good : Text → Bool) :
    (runWays test [] s).any good = (shortRunWays test s).any good := by
  apply any_eq_of_mem_iff
  intro rest
  rw [mem_run_ways, mem_short_run_ways]
  simp

theorem many_ways_any (body : Pattern) (good : Text → Bool) (turns : Nat) (s : Text)
    (enough : s.length ≤ turns) :
    (manyWays (ways body) turns s).any good = (ways (many body) s).any good := by
  apply any_eq_of_mem_iff
  intro rest
  rw [mem_many_ways (ways body) (Accepts body) (mem_ways body) turns s rest enough, ways,
    mem_many_ways (ways body) (Accepts body) (mem_ways body) s.length s rest (Nat.le_refl _)]

theorem repeat_table_tails (body : Pattern) (s : Text) (good : Text → Bool)
    (exact : ∀ good : Text → Bool, table body s (s.tails.map good) =
      s.tails.map fun suffix => (ways body suffix).any good) (turns : Nat) :
    Nat.repeat (fun current => List.zipWith or (table body s current) (s.tails.map good)) turns
        (s.tails.map good) =
      s.tails.map fun suffix => (manyWays (ways body) turns suffix).any good := by
  induction turns with
  | zero => simp [Nat.repeat, manyWays]
  | succ turns ih =>
      rw [Nat.repeat, ih, exact, List.zipWith_map, List.zipWith_self]
      simp [manyWays, List.any_flatMap]

theorem table_tails (pattern : Pattern) (s : Text) (good : Text → Bool) :
    table pattern s (s.tails.map good) =
      s.tails.map fun suffix => (ways pattern suffix).any good := by
  induction pattern generalizing good with
  | empty => simp [table, ways]
  | char test => exact char_table_tails test s good
  | run test => simp only [table, ways, run_table_tails, run_ways_any]
  | shortRun test => exact run_table_tails test s good
  | seq first second ihFirst ihSecond =>
      rw [table, ihSecond, ihFirst]
      simp [ways, List.any_flatMap]
  | alt left right ihLeft ihRight =>
      rw [table, ihLeft, ihRight, List.zipWith_map, List.zipWith_self]
      simp [ways]
  | many body ih =>
      rw [table, repeat_table_tails body s good ih]
      apply List.map_congr_left
      intro suffix member
      exact many_ways_any body good s.length suffix ((List.mem_tails _ _).mp member).length_le

theorem occurs_iff (pattern : Pattern) (s : Text) :
    occurs pattern s = true ↔
      ∃ before w after, Accepts pattern w ∧ s = before ++ (w ++ after) := by
  have everywhere : List.replicate (s.length + 1) true = s.tails.map fun _ => true := by
    rw [List.map_const', List.length_tails]
  rw [occurs, everywhere, table_tails, List.any_map, List.any_eq_true]
  simp only [Function.comp, id, List.any_eq_true, List.mem_tails, and_true]
  constructor
  · intro shape
    obtain ⟨suffix, ⟨before, rfl⟩, after, way⟩ := shape
    obtain ⟨w, accepted, rfl⟩ := (mem_ways pattern suffix after).mp way
    exact ⟨before, w, after, accepted, rfl⟩
  · intro shape
    obtain ⟨before, w, after, accepted, rfl⟩ := shape
    exact ⟨w ++ after, ⟨before, rfl⟩, after, (mem_ways _ _ _).mpr ⟨w, accepted, rfl⟩⟩

theorem occurs_iff_fits (pattern : Pattern) (s : Text) :
    occurs pattern s = true ↔ ∃ before rest, s = before ++ rest ∧ Fits pattern rest := by
  rw [occurs_iff]
  constructor
  · intro shape
    obtain ⟨before, w, after, accepted, rfl⟩ := shape
    exact ⟨before, w ++ after, rfl, w, after, accepted, rfl⟩
  · intro shape
    obtain ⟨before, _, rfl, w, after, accepted, rfl⟩ := shape
    exact ⟨before, w, after, accepted, rfl⟩

theorem occurs_between (pattern : Pattern) (front s back : Text) (found : occurs pattern s = true) :
    occurs pattern (front ++ (s ++ back)) = true := by
  obtain ⟨before, w, after, accepted, rfl⟩ := (occurs_iff pattern s).mp found
  exact (occurs_iff _ _).mpr ⟨front ++ before, w, after ++ back, accepted, by simp⟩

end OrderOfGrowth.Pattern
