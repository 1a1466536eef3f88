import OrderOfGrowth.Text.Pattern

/-!
What the two searches find: the leftmost suffix with an answer, and stretches that follow each
other from left to right (`find_all_in_order`). The second search comes to every place in a text but
those inside a stretch (`scan_visits`), and finds nothing else there than it is told (`scan_sound`).
-/

set_option autoImplicit false

namespace OrderOfGrowth.Text

variable {α κ : Type}

-- A text in two parts, cut at a character that only one of them has.
section Cuts

variable (c : Char)

theorem cut_behind (front s before behind : Text) (absent : c ∉ front)
    (same : front ++ s = before ++ c :: behind) :
    ∃ middle, before = front ++ middle ∧ s = middle ++ c :: behind := by
  rcases List.append_eq_append_iff.mp same with ⟨middle, beforeEq, sEq⟩ | ⟨middle, frontEq, restEq⟩
  · exact ⟨middle, beforeEq, sEq⟩
  · cases middle with
    | nil => exact ⟨[], by simpa using frontEq.symm, restEq.symm⟩
    | cons d middle =>
        obtain ⟨rfl, -⟩ := List.cons.inj restEq
        exact absurd (frontEq ▸ List.mem_append_right _ List.mem_cons_self) absent

theorem cut_ahead (s back front behind : Text) (absent : c ∉ back)
    (same : s ++ back = front ++ c :: behind) :
    ∃ rest, behind = rest ++ back ∧ s = front ++ c :: rest := by
  rcases List.append_eq_append_iff.mp same with ⟨middle, -, backEq⟩ | ⟨middle, sEq, restEq⟩
  · exact absurd (backEq ▸ List.mem_append_right _ List.mem_cons_self) absent
  · cases middle with
    | nil =>
        have member : c ∈ [] ++ back := restEq ▸ List.mem_cons_self
        exact absurd member absent
    | cons d middle =>
        obtain ⟨rfl, rfl⟩ := List.cons.inj restEq
        exact ⟨middle, rfl, sEq⟩

end Cuts

theorem first_suffix_none (find? : Text → Option α) (s : Text) :
    firstSuffix? find? s = none ↔ ∀ before suffix, s = before ++ suffix → find? suffix = none := by
  induction s with
  | nil => simp [firstSuffix?]
  | cons c s ih =>
      rw [firstSuffix?]
      constructor
      · intro absent before suffix split
        cases here : find? (c :: s) with
        | some a => simp [here] at absent
        | none =>
            rw [here] at absent
            cases before with
            | nil => rw [← here, split, List.nil_append]
            | cons d before => exact ih.mp absent before suffix (List.cons.inj split).2
      · intro nowhere
        rw [nowhere [] (c :: s) rfl]
        exact ih.mpr fun before suffix split => nowhere (c :: before) suffix (by simp [split])

theorem first_suffix_some (find? : Text → Option α) (s : Text) (a : α) :
    firstSuffix? find? s = some a ↔
      ∃ before suffix, s = before ++ suffix ∧ find? suffix = some a ∧
        ∀ earlier longer, s = earlier ++ longer → earlier.length < before.length →
          find? longer = none := by
  induction s with
  | nil =>
      simp only [firstSuffix?, List.nil_eq, List.append_eq_nil_iff]
      constructor
      · intro found
        exact ⟨[], [], ⟨rfl, rfl⟩, found, by simp⟩
      · intro shape
        obtain ⟨before, suffix, ⟨rfl, rfl⟩, found, -⟩ := shape
        exact found
  | cons c s ih =>
      rw [firstSuffix?]
      cases here : find? (c :: s) with
      | some b =>
          constructor
          · rintro same
            exact ⟨[], c :: s, rfl, here.trans same, by simp⟩
          · intro shape
            obtain ⟨before, suffix, split, found, leftmost⟩ := shape
            cases before with
            | nil =>
                rw [split, List.nil_append] at here
                exact here.symm.trans found
            | cons d before =>
                have absent := leftmost [] (c :: s) rfl (by simp)
                rw [here] at absent
                cases absent
      | none =>
          rw [ih]
          constructor
          · intro shape
            obtain ⟨before, suffix, rfl, found, leftmost⟩ := shape
            refine ⟨c :: before, suffix, rfl, found, ?_⟩
            intro earlier longer split shorter
            cases earlier with
            | nil => rw [← here, split, List.nil_append]
            | cons d earlier =>
                exact leftmost earlier longer (List.cons.inj split).2 (by simpa using shorter)
          · intro shape
            obtain ⟨before, suffix, split, found, leftmost⟩ := shape
            cases before with
            | nil =>
                rw [split, List.nil_append] at here
                rw [here] at found
                cases found
            | cons d before =>
                obtain ⟨rfl, rfl⟩ := List.cons.inj split
                refine ⟨before, suffix, rfl, found, ?_⟩
                intro earlier longer longerSplit shorter
                exact leftmost (c :: earlier) longer (congrArg (List.cons c) longerSplit)
                  (by simpa using shorter)

-- Stretches that are not empty, start no earlier than `position`, follow each other without
-- overlap and end at `limit` at the latest.
def InOrder (limit : Nat) : Nat → List (Found κ) → Prop
  | _, [] => True
  | position, found :: rest =>
    position ≤ found.start ∧ found.start < found.stop ∧ found.stop ≤ limit ∧
      InOrder limit found.stop rest

theorem in_order_later (limit early late : Nat) (found : List (Found κ)) (later : early ≤ late)
    (ordered : InOrder limit late found) : InOrder limit early found := by
  cases found with
  | nil => trivial
  | cons first rest => exact ⟨Nat.le_trans later ordered.1, ordered.2⟩

theorem find_all_from_none (find? : Option Char → Text → Option (κ × Text)) (position : Nat)
    (before : Option Char) (c : Char) (s : Text) (absent : find? before (c :: s) = none) :
    findAllFrom find? position before (c :: s) = findAllFrom find? (position + 1) (some c) s := by
  rw [findAllFrom, absent]

theorem find_all_from_some (find? : Option Char → Text → Option (κ × Text)) (position : Nat)
    (before : Option Char) (c : Char) (s : Text) (kind : κ) (rest : Text)
    (present : find? before (c :: s) = some (kind, rest)) (shorter : rest.length < s.length + 1) :
    findAllFrom find? position before (c :: s) =
      ⟨kind, position, position + (s.length + 1 - rest.length)⟩ ::
        findAllFrom find? (position + (s.length + 1 - rest.length))
          ((c :: s).take (s.length + 1 - rest.length)).getLast? rest := by
  rw [findAllFrom, present]
  simp only [dif_pos shorter]

theorem find_all_from_in_order (find? : Option Char → Text → Option (κ × Text)) (position : Nat)
    (before : Option Char) (s : Text) :
    InOrder (position + s.length) position (findAllFrom find? position before s) := by
  induction position, before, s using findAllFrom.induct find? with
  | case1 position before => simp [findAllFrom, InOrder]
  | case2 position before c s absent ih =>
      rw [find_all_from_none find? position before c s absent]
      apply in_order_later _ position (position + 1) _ (Nat.le_succ position)
      have same : position + (c :: s).length = position + 1 + s.length := by
        rw [List.length_cons]
        omega
      rw [same]
      exact ih
  | case3 position before c s kind rest present shorter taken ih =>
      rw [find_all_from_some find? position before c s kind rest present shorter]
      have same : position + (c :: s).length = position + taken + rest.length := by
        rw [List.length_cons]
        omega
      rw [same]
      exact ⟨Nat.le_refl _, by simp only; omega, by simp only; omega, ih⟩
  | case4 position before c s kind rest present longer ih =>
      rw [findAllFrom, present]
      simp only [dif_neg longer]
      apply in_order_later _ position (position + 1) _ (Nat.le_succ position)
      have same : position + (c :: s).length = position + 1 + s.length := by
        rw [List.length_cons]
        omega
      rw [same]
      exact ih

theorem find_all_in_order (find? : Option Char → Text → Option (κ × Text)) (s : Text) :
    InOrder s.length 0 (findAll find? s) := by
  simpa [findAll] using find_all_from_in_order find? 0 none s

section Scan

variable (find? : Option Char → Text → Option (κ × Text))

-- What is left of a text is the end of it.
def LeavesSuffixes : Prop :=
  ∀ before s kind rest, find? before s = some (kind, rest) → rest <:+ s

-- What is found in the rest of a text behind the part that has been seen.
def scanFrom (seen rest : Text) : List (Found κ) :=
  findAllFrom find? seen.length seen.getLast? rest

def Found.Crosses (found : Found κ) (position : Nat) : Prop :=
  found.start < position ∧ position < found.stop

instance (found : Found κ) (position : Nat) : Decidable (found.Crosses position) :=
  inferInstanceAs (Decidable (found.start < position ∧ position < found.stop))

variable {find?}

theorem scan_found (seen w rest : Text) (kind : κ) (nonempty : w ≠ [])
    (here : find? seen.getLast? (w ++ rest) = some (kind, rest)) :
    scanFrom find? seen (w ++ rest) =
      ⟨kind, seen.length, (seen ++ w).length⟩ :: scanFrom find? (seen ++ w) rest := by
  cases w with
  | nil => exact absurd rfl nonempty
  | cons c w =>
      have shorter : rest.length < (w ++ rest).length + 1 := by
        rw [List.length_append]
        omega
      have taken : (w ++ rest).length + 1 - rest.length = (c :: w).length := by
        rw [List.length_append, List.length_cons]
        omega
      rw [List.cons_append] at here ⊢
      rw [scanFrom, find_all_from_some find? _ _ c (w ++ rest) kind rest here shorter, taken,
        ← List.cons_append, List.take_left, scanFrom, List.length_append, List.getLast?_append,
        List.getLast?_eq_some_getLast nonempty, Option.some_or]

variable (leaves : LeavesSuffixes find?)

include leaves

theorem scan_step (seen : Text) (c : Char) (s : Text) :
    scanFrom find? seen (c :: s) = scanFrom find? (seen ++ [c]) s ∨
      ∃ kind w rest, w ≠ [] ∧ c :: s = w ++ rest ∧ find? seen.getLast? (c :: s) = some (kind, rest) ∧
        scanFrom find? seen (c :: s) =
          ⟨kind, seen.length, (seen ++ w).length⟩ :: scanFrom find? (seen ++ w) rest := by
  have passedOver : findAllFrom find? (seen.length + 1) (some c) s = scanFrom find? (seen ++ [c]) s := by
    simp [scanFrom]
  cases here : find? seen.getLast? (c :: s) with
  | none => exact .inl ((find_all_from_none find? _ _ c s here).trans passedOver)
  | some found =>
      obtain ⟨kind, rest⟩ := found
      obtain ⟨w, split⟩ := leaves _ _ kind rest here
      by_cases nothing : w = []
      · left
        have same : rest = c :: s := by simpa [nothing] using split
        rw [scanFrom, findAllFrom, here, same]
        simp only [List.length_cons, Nat.lt_irrefl, dif_neg, not_false_eq_true]
        exact passedOver
      · rw [← split] at here ⊢
        exact .inr ⟨kind, w, rest, nothing, rfl, rfl, scan_found seen w rest kind nothing here⟩

theorem scan_visits (seen ahead rest : Text) :
    (∃ found ∈ scanFrom find? seen (ahead ++ rest), found.Crosses (seen ++ ahead).length) ∨
      ∃ front, scanFrom find? seen (ahead ++ rest) = front ++ scanFrom find? (seen ++ ahead) rest := by
  induction size : ahead.length using Nat.strongRecOn generalizing seen ahead with
  | ind n ih =>
    cases ahead with
    | nil => exact .inr ⟨[], by simp⟩
    | cons c ahead =>
        rw [List.length_cons] at size
        rcases scan_step leaves seen c (ahead ++ rest) with
          skipped | ⟨kind, w, left, nonempty, split, -, taken⟩
        · have further := ih ahead.length (by omega) (seen ++ [c]) ahead rfl
          rw [List.append_assoc, List.singleton_append] at further
          rwa [List.cons_append, skipped]
        · rw [← List.cons_append] at split taken
          rw [taken]
          rcases List.append_eq_append_iff.mp split with ⟨middle, rfl, restEq⟩ | ⟨middle, aheadEq, rfl⟩
          · by_cases whole : middle = []
            · right
              refine ⟨[⟨kind, seen.length, (seen ++ (c :: ahead ++ middle)).length⟩], ?_⟩
              simp [whole, restEq]
            · have longer := List.length_pos_iff.mpr whole
              refine .inl ⟨_, List.mem_cons_self, ?_⟩
              simp only [Found.Crosses, List.length_append, List.length_cons]
              omega
          · have shorter := congrArg List.length aheadEq
            have positive := List.length_pos_iff.mpr nonempty
            rw [List.length_append, List.length_cons] at shorter
            rw [aheadEq, ← List.append_assoc]
            rcases ih middle.length (by omega) (seen ++ w) middle rfl with ⟨found, member, crosses⟩ | ⟨front, read⟩
            · exact .inl ⟨found, List.mem_cons_of_mem _ member, crosses⟩
            · exact .inr ⟨_ :: front, congrArg (List.cons _) read⟩

theorem scan_sound (seen s : Text) :
    ∀ found ∈ scanFrom find? seen s, ∃ ahead w rest, s = ahead ++ (w ++ rest) ∧ w ≠ [] ∧
      found.start = (seen ++ ahead).length ∧ found.stop = (seen ++ (ahead ++ w)).length ∧
      find? (seen ++ ahead).getLast? (w ++ rest) = some (found.kind, rest) := by
  induction size : s.length using Nat.strongRecOn generalizing seen s with
  | ind n ih =>
    intro found member
    cases s with
    | nil => simp [scanFrom, findAllFrom] at member
    | cons c s =>
        rw [List.length_cons] at size
        rcases scan_step leaves seen c s with skipped | ⟨kind, w, rest, nonempty, split, here, taken⟩
        · rw [skipped] at member
          obtain ⟨ahead, w, rest, rfl, nonempty, starts, stops, found⟩ :=
            ih s.length (by omega) (seen ++ [c]) s rfl found member
          exact ⟨c :: ahead, w, rest, rfl, nonempty, by simp [starts], by simp [stops], by simpa using found⟩
        · rw [taken, List.mem_cons] at member
          rcases member with rfl | member
          · exact ⟨[], w, rest, split, nonempty, by simp, rfl, by simpa [← split] using here⟩
          · have shorter := congrArg List.length split
            have positive := List.length_pos_iff.mpr nonempty
            rw [List.length_append, List.length_cons] at shorter
            obtain ⟨ahead, v, left, rfl, more, starts, stops, found⟩ :=
              ih rest.length (by omega) (seen ++ w) rest rfl found member
            exact ⟨w ++ ahead, v, left, by simp [split], more, by simp [starts], by simp [stops],
              by simpa using found⟩

end Scan

end OrderOfGrowth.Text
