import OrderOfGrowth.Proofs.Text.Acceptance

/-!
Patterns on two related texts. If every test of a pattern carries the relation, so does the pattern
(`carries_of_tests`): whatever a way takes from one text, some way takes its like from the other, and
the rests are related again.
-/

set_option autoImplicit false

namespace OrderOfGrowth.Pattern

variable (related : Text → Text → Prop)

def Carries (pattern : Pattern) : Prop :=
  ∀ s t w rest, related s t → Accepts pattern w → s = w ++ rest →
    ∃ v left, Accepts pattern v ∧ t = v ++ left ∧ related rest left

theorem carries_empty : Carries related empty := by
  rintro s t w rest same rfl rfl
  exact ⟨[], t, rfl, rfl, same⟩

theorem carries_seq (first second : Pattern) (ofFirst : Carries related first)
    (ofSecond : Carries related second) : Carries related (seq first second) := by
  rintro s t _ rest same ⟨u, w, firstAccepts, secondAccepts, rfl⟩ rfl
  obtain ⟨u', middle, firstTakes, rfl, sameMiddle⟩ :=
    ofFirst _ t u (w ++ rest) same firstAccepts (List.append_assoc u w rest)
  obtain ⟨w', left, secondTakes, rfl, sameRest⟩ :=
    ofSecond _ middle w rest sameMiddle secondAccepts rfl
  exact ⟨u' ++ w', left, ⟨u', w', firstTakes, secondTakes, rfl⟩, by simp, sameRest⟩

theorem carries_alt (left right : Pattern) (ofLeft : Carries related left)
    (ofRight : Carries related right) : Carries related (alt left right) := by
  intro s t w rest same accepted split
  cases accepted with
  | inl accepted =>
      obtain ⟨v, behind, taken, parted, sameRest⟩ := ofLeft s t w rest same accepted split
      exact ⟨v, behind, .inl taken, parted, sameRest⟩
  | inr accepted =>
      obtain ⟨v, behind, taken, parted, sameRest⟩ := ofRight s t w rest same accepted split
      exact ⟨v, behind, .inr taken, parted, sameRest⟩

-- A turn may take nothing from the other text, and is then left out there.
theorem carries_many (body : Pattern) (ofBody : Carries related body) :
    Carries related (many body) := by
  rintro s t _ rest same ⟨parts, all, rfl⟩ split
  induction parts generalizing s t with
  | nil => exact ⟨[], t, ⟨[], by simp, rfl⟩, rfl, by simpa [split] using same⟩
  | cons u parts ih =>
      obtain ⟨-, accepted⟩ := all u List.mem_cons_self
      rw [List.flatten_cons, List.append_assoc] at split
      obtain ⟨v, middle, taken, rfl, sameMiddle⟩ := ofBody s t u _ same accepted split
      obtain ⟨_, left, ⟨later, allLater, rfl⟩, rfl, sameRest⟩ :=
        ih _ middle sameMiddle (fun w member => all w (List.mem_cons_of_mem _ member)) rfl
      by_cases nothing : v = []
      · exact ⟨later.flatten, left, ⟨later, allLater, rfl⟩, by simp [nothing], sameRest⟩
      · refine ⟨v ++ later.flatten, left, ⟨v :: later, ?_, by simp⟩, by simp, sameRest⟩
        simpa [nothing, taken] using allLater

-- What holds of the tests for single characters and of the tests for runs in a pattern.
def EachTest (ofChar ofRun : (Char → Bool) → Prop) : Pattern → Prop
  | empty => True
  | char test => ofChar test
  | run test => ofRun test
  | shortRun test => ofRun test
  | seq first second => EachTest ofChar ofRun first ∧ EachTest ofChar ofRun second
  | alt left right => EachTest ofChar ofRun left ∧ EachTest ofChar ofRun right
  | many body => EachTest ofChar ofRun body

instance decidableEachTest (ofChar ofRun : (Char → Bool) → Prop) [DecidablePred ofChar]
    [DecidablePred ofRun] : DecidablePred (EachTest ofChar ofRun)
  | empty => inferInstanceAs (Decidable True)
  | char test => inferInstanceAs (Decidable (ofChar test))
  | run test => inferInstanceAs (Decidable (ofRun test))
  | shortRun test => inferInstanceAs (Decidable (ofRun test))
  | seq first second =>
    have := decidableEachTest ofChar ofRun first
    have := decidableEachTest ofChar ofRun second
    inferInstanceAs (Decidable (EachTest ofChar ofRun first ∧ EachTest ofChar ofRun second))
  | alt left right =>
    have := decidableEachTest ofChar ofRun left
    have := decidableEachTest ofChar ofRun right
    inferInstanceAs (Decidable (EachTest ofChar ofRun left ∧ EachTest ofChar ofRun right))
  | many body => decidableEachTest ofChar ofRun body

theorem carries_of_tests (ofChar ofRun : (Char → Bool) → Prop)
    (chars : ∀ test, ofChar test → Carries related (char test))
    (runs : ∀ test, ofRun test → Carries related (run test)) (pattern : Pattern)
    (each : EachTest ofChar ofRun pattern) : Carries related pattern := by
  induction pattern with
  | empty => exact carries_empty related
  | char test => exact chars test each
  | run test => exact runs test each
  | shortRun test => exact runs test each
  | seq first second ihFirst ihSecond =>
      exact carries_seq related first second (ihFirst each.1) (ihSecond each.2)
  | alt left right ihLeft ihRight =>
      exact carries_alt related left right (ihLeft each.1) (ihRight each.2)
  | many body ih => exact carries_many related body (ih each)

theorem each_test_text (ofChar ofRun : (Char → Bool) → Prop) (s : Text)
    (each : ∀ c ∈ s, ofChar (· == c)) : EachTest ofChar ofRun (text s) := by
  induction s with
  | nil => trivial
  | cons c s ih =>
      exact ⟨each c List.mem_cons_self, ih fun d member => each d (List.mem_cons_of_mem c member)⟩

theorem accepts_avoids (pattern : Pattern) (w : Text) (c : Char)
    (each : EachTest (· c = false) (· c = false) pattern) (accepted : Accepts pattern w) : c ∉ w := by
  have runAvoids : ∀ (test : Char → Bool) (w : Text), test c = false → (∀ d ∈ w, test d = true) → c ∉ w := by
    intro test w fails all member
    rw [all c member] at fails
    cases fails
  induction pattern generalizing w with
  | empty => simp [(accepts_empty w).mp accepted]
  | char test =>
      obtain ⟨d, passes, rfl⟩ := accepted
      exact runAvoids test [d] each (by simpa using passes)
  | run test => exact runAvoids test w each accepted
  | shortRun test => exact runAvoids test w each accepted
  | seq first second ihFirst ihSecond =>
      obtain ⟨u, v, firstAccepts, secondAccepts, rfl⟩ := accepted
      rw [List.mem_append, not_or]
      exact ⟨ihFirst u each.1 firstAccepts, ihSecond v each.2 secondAccepts⟩
  | alt left right ihLeft ihRight =>
      cases accepted with
      | inl accepted => exact ihLeft w each.1 accepted
      | inr accepted => exact ihRight w each.2 accepted
  | many body ih =>
      obtain ⟨parts, all, rfl⟩ := accepted
      rw [List.mem_flatten]
      intro member
      obtain ⟨part, inside, has⟩ := member
      exact ih part each (all part inside).2 has

theorem fits_carried (pattern : Pattern) (carries : Carries related pattern) (s t : Text)
    (same : related s t) (fits : Fits pattern s) : Fits pattern t := by
  obtain ⟨w, rest, accepted, split⟩ := fits
  obtain ⟨v, left, taken, parted, -⟩ := carries s t w rest same accepted split
  exact ⟨v, left, taken, parted⟩

theorem occurs_carried (pattern : Pattern) (carries : Carries related pattern) (s t : Text)
    (suffixes : ∀ suffix, suffix <:+ s → ∃ other, other <:+ t ∧ related suffix other)
    (found : occurs pattern s = true) : occurs pattern t = true := by
  obtain ⟨before, w, after, accepted, rfl⟩ := (occurs_iff pattern s).mp found
  obtain ⟨_, ⟨front, rfl⟩, same⟩ := suffixes (w ++ after) ⟨before, rfl⟩
  obtain ⟨v, left, taken, rfl, -⟩ := carries _ _ w after same accepted rfl
  exact (occurs_iff pattern _).mpr ⟨front, v, left, taken, rfl⟩

end OrderOfGrowth.Pattern
