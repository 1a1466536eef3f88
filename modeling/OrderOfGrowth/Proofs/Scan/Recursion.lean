import OrderOfGrowth.Proofs.Scan.Definitions

/-!
The recursion signal, said without a search. The calls of a name are the opening parentheses behind
it, wherever they stand (`calls_length`), and the signal is that number for the leftmost definition
(`recursion_exact`).
-/

set_option autoImplicit false

namespace OrderOfGrowth.Scan

open Text (isNameChar isWhiteSpace)

def endsWithName (name before : Text) : Bool :=
  name.isSuffixOf (before.rdropWhile isWhiteSpace)

def isCallSite (name source : Text) (position : Nat) : Bool :=
  source[position]? == some '(' && endsWithName name (source.take position)

def callSites (name source : Text) : Nat :=
  (List.range source.length).countP (isCallSite name source)

structure IsName (name : Text) : Prop where
  nonempty : name ≠ []
  inside : ∀ c ∈ name, isNameChar c = true

theorem header_without_parenthesis (name gap : Text) (isName : IsName name)
    (white : ∀ c ∈ gap, isWhiteSpace c = true) : '(' ∉ name ++ gap := by
  intro member
  cases List.mem_append.mp member with
  | inl inName => exact not_inside isNameChar name '(' isName.inside (by decide) inName
  | inr inGap => exact not_inside isWhiteSpace gap '(' white (by decide) inGap

theorem ends_with_name_iff (name before : Text) (isName : IsName name) :
    endsWithName name before = true ↔
      ∃ front gap, before = front ++ (name ++ gap) ∧ ∀ c ∈ gap, isWhiteSpace c = true := by
  have split : before.rdropWhile isWhiteSpace ++ before.rtakeWhile isWhiteSpace = before := by
    rw [List.rdropWhile, List.rtakeWhile, ← List.reverse_append, List.takeWhile_append_dropWhile,
      List.reverse_reverse]
  rw [endsWithName, List.isSuffixOf_iff_suffix]
  constructor
  · intro ending
    obtain ⟨front, kept⟩ := ending
    refine ⟨front, before.rtakeWhile isWhiteSpace, ?_, fun c member => List.mem_rtakeWhile_imp member⟩
    rw [← List.append_assoc, kept, split]
  · intro shape
    obtain ⟨front, gap, rfl, white⟩ := shape
    obtain ⟨start, last, rfl⟩ := name.eq_nil_or_concat'.resolve_left isName.nonempty
    have notWhite := name_not_white last (isName.inside last (by simp))
    have backwards : ∀ c ∈ gap.reverse, isWhiteSpace c = true :=
      fun c member => white c (List.mem_reverse.mp member)
    have kept : (front ++ (start ++ [last] ++ gap)).rdropWhile isWhiteSpace =
        front ++ (start ++ [last]) := by
      rw [List.rdropWhile, List.reverse_append, List.reverse_append, List.append_assoc,
        List.dropWhile_append_of_pos backwards]
      simp [notWhite]
    rw [kept]
    exact ⟨front, rfl⟩

theorem ends_with_name_nil (name : Text) (isName : IsName name) : endsWithName name [] = false := by
  rw [Bool.eq_false_iff]
  intro ending
  obtain ⟨front, gap, split, -⟩ := (ends_with_name_iff name [] isName).mp ending
  have empty := List.append_eq_nil_iff.mp (List.append_eq_nil_iff.mp split.symm).2
  exact isName.nonempty empty.1

-- Neither the name nor white space has a parenthesis, so only what follows the last one matters.
theorem ends_past_parenthesis (name before behind : Text) (isName : IsName name) :
    endsWithName name (before ++ '(' :: behind) = endsWithName name behind := by
  rw [Bool.eq_iff_iff, ends_with_name_iff name _ isName, ends_with_name_iff name _ isName]
  constructor
  · intro shape
    obtain ⟨front, gap, split, white⟩ := shape
    have outside := header_without_parenthesis name gap isName white
    rcases List.append_eq_append_iff.mp split with ⟨middle, frontEq, behindEq⟩ | ⟨middle, _, nameEq⟩
    · cases middle with
      | nil =>
          have member : '(' ∈ [] ++ (name ++ gap) := behindEq ▸ List.mem_cons_self
          exact absurd member outside
      | cons c middle =>
          exact ⟨middle, gap, (List.cons.inj behindEq).2, white⟩
    · exact absurd (by simp [nameEq]) outside
  · intro shape
    obtain ⟨front, gap, rfl, white⟩ := shape
    exact ⟨before ++ '(' :: front, gap, by simp, white⟩

theorem call_sites_past_parenthesis (name before behind : Text) (isName : IsName name)
    (outside : '(' ∉ before) :
    callSites name (before ++ '(' :: behind) =
      (if endsWithName name before then 1 else 0) + callSites name behind := by
  have noneInside : (List.range before.length).countP
      (isCallSite name (before ++ '(' :: behind)) = 0 := by
    rw [List.countP_eq_zero]
    intro position member site
    have inside := List.mem_range.mp member
    have present : before[position] = '(' := by
      simpa [isCallSite, List.getElem?_append_left inside, List.getElem?_eq_getElem inside]
        using (Bool.and_eq_true_iff.mp site).1
    exact outside (present ▸ List.getElem_mem inside)
  have there : isCallSite name (before ++ '(' :: behind) before.length = endsWithName name before := by
    simp [isCallSite]
  have later : ∀ position, isCallSite name (before ++ '(' :: behind) (before.length + (position + 1)) =
      isCallSite name behind position := by
    intro position
    have shifted : (before ++ '(' :: behind).take (before.length + (position + 1)) =
        before ++ '(' :: behind.take position := by
      rw [List.take_length_add_append]
      rfl
    have there : (before ++ '(' :: behind)[before.length + (position + 1)]? = behind[position]? := by
      rw [List.getElem?_append_right (by omega), Nat.add_sub_cancel_left, List.getElem?_cons_succ]
    rw [isCallSite, isCallSite, shifted, ends_past_parenthesis name _ _ isName, there]
  have tail : (isCallSite name (before ++ '(' :: behind) ∘ fun position => before.length + position) ∘
      Nat.succ = isCallSite name behind :=
    funext later
  have size : (before ++ '(' :: behind).length = before.length + (behind.length + 1) := by
    rw [List.length_append, List.length_cons]
  rw [callSites, size, List.range_add, List.countP_append, noneInside, List.countP_map,
    List.range_succ_eq_map, List.countP_cons, List.countP_map, tail, Function.comp_apply,
    Nat.add_zero, there, callSites]
  omega

theorem fits_call_iff (name s : Text) :
    (callPattern name).Fits s ↔
      ∃ gap, (∀ c ∈ gap, isWhiteSpace c = true) ∧ ∃ behind, s = name ++ (gap ++ '(' :: behind) := by
  simp only [callPattern, Pattern.fits_sequence_cons, Pattern.fits_sequence_nil,
    Pattern.accepts_white, Pattern.accepts_text, Pattern.accepts_one, exists_eq_left,
    List.cons_append, List.nil_append, and_true]
  constructor
  · intro parted
    obtain ⟨_, rfl, gap, white, _, rfl, behind, rfl⟩ := parted
    exact ⟨gap, white, behind, rfl⟩
  · intro shape
    obtain ⟨gap, white, behind, rfl⟩ := shape
    exact ⟨_, rfl, gap, white, _, rfl, behind, rfl⟩

theorem call_outside_name (name : Text) (isName : IsName name) (c : Char) (s : Text)
    (outside : isNameChar c = false) : ¬ (callPattern name).Fits (c :: s) := by
  intro fits
  obtain ⟨gap, _, behind, split⟩ := (fits_call_iff name _).mp fits
  cases name with
  | nil => exact isName.nonempty rfl
  | cons d name =>
      obtain ⟨rfl, -⟩ := List.cons.inj split
      have inName := isName.inside c List.mem_cons_self
      rw [outside] at inName
      cases inName

theorem rest_of_call (name s rest : Text) (kind : Unit)
    (found : ((callPattern name).rest? s).map ((), ·) = some (kind, rest)) :
    ∃ gap, (∀ c ∈ gap, isWhiteSpace c = true) ∧ s = name ++ (gap ++ '(' :: rest) := by
  obtain ⟨left, taken, same⟩ := Option.map_eq_some_iff.mp found
  obtain rfl : left = rest := congrArg Prod.snd same
  obtain ⟨w, accepted, rfl⟩ := Pattern.rest_some _ _ _ taken
  simp only [callPattern, Pattern.accepts_sequence_cons, Pattern.accepts_sequence_nil,
    Pattern.accepts_white, Pattern.accepts_text, Pattern.accepts_one] at accepted
  obtain ⟨_, _, rfl, ⟨gap, _, white, ⟨_, _, rfl, rfl, rfl⟩, rfl⟩, rfl⟩ := accepted
  exact ⟨gap, white, by simp⟩

-- Where no call starts, no call site is lost by starting the text one character later.
theorem call_sites_cons (name : Text) (c : Char) (s : Text) (isName : IsName name)
    (unfit : ¬ (callPattern name).Fits (c :: s)) : callSites name (c :: s) = callSites name s := by
  have first : isCallSite name (c :: s) 0 = false := by
    simp [isCallSite, ends_with_name_nil name isName]
  have later : ∀ position, isCallSite name (c :: s) (position + 1) = isCallSite name s position := by
    intro position
    by_cases opening : s[position]? = some '('
    · have split : s = s.take position ++ '(' :: s.drop (position + 1) := by
        obtain ⟨inside, there⟩ := List.getElem?_eq_some_iff.mp opening
        rw [← there, List.cons_getElem_drop_succ, List.take_append_drop]
      have same : endsWithName name (c :: s.take position) = endsWithName name (s.take position) := by
        rw [Bool.eq_iff_iff, ends_with_name_iff name _ isName, ends_with_name_iff name _ isName]
        constructor
        · intro shape
          obtain ⟨front, gap, takenEq, white⟩ := shape
          cases front with
          | nil =>
              refine absurd ((fits_call_iff name _).mpr ⟨gap, white, s.drop (position + 1), ?_⟩) unfit
              calc c :: s = (c :: s.take position) ++ '(' :: s.drop (position + 1) := congrArg _ split
                _ = name ++ (gap ++ '(' :: s.drop (position + 1)) := by rw [takenEq]; simp
          | cons d front => exact ⟨front, gap, (List.cons.inj takenEq).2, white⟩
        · intro shape
          obtain ⟨front, gap, takenEq, white⟩ := shape
          exact ⟨c :: front, gap, by rw [takenEq]; rfl, white⟩
      simp [isCallSite, same]
    · have other : (s[position]? == some '(') = false := beq_eq_false_iff_ne.mpr opening
      rw [isCallSite, isCallSite, List.getElem?_cons_succ, other]
      rfl
  have tail : isCallSite name (c :: s) ∘ Nat.succ = isCallSite name s := funext later
  rw [callSites, List.length_cons, List.range_succ_eq_map, List.countP_cons, List.countP_map, tail,
    first, callSites]
  rfl

theorem call_sites_of_call (name gap rest : Text) (isName : IsName name)
    (white : ∀ c ∈ gap, isWhiteSpace c = true) :
    callSites name (name ++ (gap ++ '(' :: rest)) = callSites name rest + 1 := by
  have outside := header_without_parenthesis name gap isName white
  have ending : endsWithName name (name ++ gap) = true :=
    (ends_with_name_iff name _ isName).mpr ⟨[], gap, rfl, white⟩
  rw [← List.append_assoc, call_sites_past_parenthesis name (name ++ gap) rest isName outside,
    if_pos ending, Nat.add_comm]

-- Each stretch that is found ends with its only parenthesis, so the search that goes on behind it
-- misses no call site.
theorem calls_from_length (name : Text) (isName : IsName name) (position : Nat)
    (before : Option Char) (s : Text) :
    (Text.findAllFrom (fun _ s => ((callPattern name).rest? s).map ((), ·)) position before s).length =
      callSites name s := by
  induction position, before, s using Text.findAllFrom.induct
      (fun _ s => ((callPattern name).rest? s).map ((), ·)) with
  | case1 position before => rw [Text.findAllFrom]; rfl
  | case2 position before c s absent ih =>
      rw [Text.find_all_from_none _ position before c s absent, ih]
      have unfit := (Pattern.rest_none_iff _ _).mp (Option.map_eq_none_iff.mp absent)
      exact (call_sites_cons name c s isName unfit).symm
  | case3 position before c s kind rest present shorter taken ih =>
      rw [Text.find_all_from_some _ position before c s kind rest present shorter, List.length_cons, ih]
      obtain ⟨gap, white, split⟩ := rest_of_call name _ rest kind present
      rw [split, call_sites_of_call name gap rest isName white]
  | case4 position before c s kind rest present longer ih =>
      obtain ⟨gap, white, split⟩ := rest_of_call name _ rest kind present
      have size := congrArg List.length split
      simp only [List.length_cons, List.length_append] at size
      omega

theorem calls_length (name source : Text) (isName : IsName name) :
    (calls name source).length = callSites name source :=
  calls_from_length name isName 0 none source

theorem definition_is_call_site (source : Text) (position : Nat) (name : Text)
    (defines : DefinesAt source position name) : 1 ≤ callSites name source := by
  obtain ⟨before, after, rfl, -, run, gap, parameters, space, body, rest, white, -, -, rfl⟩ := defines
  have ending : endsWithName name (before ++ (name ++ gap)) = true :=
    (ends_with_name_iff name _ ⟨run.nonempty, run.inside⟩).mpr ⟨before, gap, rfl, white⟩
  have split : ∀ behind, before ++ (name ++ (gap ++ '(' :: behind)) =
      (before ++ (name ++ gap)) ++ '(' :: behind := by
    intro behind
    simp
  rw [callSites, split]
  apply List.countP_pos_iff.mpr
  refine ⟨(before ++ (name ++ gap)).length, ?_, ?_⟩
  · simp only [List.mem_range, List.length_append, List.length_cons]
    omega
  · rw [isCallSite, List.take_left, ending]
    simp

theorem recursion_of_definition (source : Text) (position : Nat) (name : Text)
    (definition : LeftmostDefinition source position name) :
    (calls name source).length = callSites name source ∧ recursion? source =
      if 2 ≤ callSites name source then some ⟨name, callSites name source⟩ else none := by
  have found := (defined_name_iff source name).mpr ⟨position, definition⟩
  obtain ⟨_, _, _, _, run, _⟩ := definition.defines
  have counted := calls_length name source ⟨run.nonempty, run.inside⟩
  exact ⟨counted, by simp only [recursion?, found, counted]⟩

theorem recursion_some (source : Text) (recursion : Recursion)
    (found : recursion? source = some recursion) :
    ∃ position, LeftmostDefinition source position recursion.functionName ∧
      recursion.callCount = callSites recursion.functionName source ∧ 2 ≤ recursion.callCount := by
  cases named : definedName? source with
  | none => simp [recursion?, named] at found
  | some name =>
      obtain ⟨position, definition⟩ := (defined_name_iff source name).mp named
      rw [(recursion_of_definition source position name definition).2] at found
      by_cases enough : 2 ≤ callSites name source
      · rw [if_pos enough, Option.some.injEq] at found
        subst found
        exact ⟨position, definition, rfl, enough⟩
      · simp [enough] at found

-- The scan asks a source for its name and for the call sites of names, and for nothing else.
theorem recursion_congr (source other : Text) (sameName : definedName? other = definedName? source)
    (sameCalls : ∀ name, IsName name → callSites name other = callSites name source) :
    recursion? other = recursion? source := by
  rw [recursion?, recursion?, sameName]
  cases named : definedName? source with
  | none => rfl
  | some name =>
      obtain ⟨position, definition⟩ := (defined_name_iff source name).mp named
      obtain ⟨_, _, _, _, run, _⟩ := definition.defines
      have isName : IsName name := ⟨run.nonempty, run.inside⟩
      simp only [calls_length name _ isName, sameCalls name isName]

/-- The name that is captured is the whole word of the leftmost definition, if there is one, and the
signal is the number of its call sites, if there are two or more. The calls that the search finds are
as many as there are call sites, and the definition is one of them. -/
theorem recursion_exact (source : Text) :
    ((∀ position name, ¬ DefinesAt source position name) ∧ definedName? source = none ∧
        recursion? source = none) ∨
      ∃ position name, LeftmostDefinition source position name ∧ definedName? source = some name ∧
        (calls name source).length = callSites name source ∧ 1 ≤ callSites name source ∧
        recursion? source =
          if 2 ≤ callSites name source then some ⟨name, callSites name source⟩ else none := by
  cases found : definedName? source with
  | none =>
      left
      have nowhere := (defined_name_none_iff source).mp found
      exact ⟨nowhere, rfl, by rw [recursion?, found]⟩
  | some name =>
      right
      obtain ⟨position, definition⟩ := (defined_name_iff source name).mp found
      obtain ⟨counted, signal⟩ := recursion_of_definition source position name definition
      have atLeastOne := definition_is_call_site source position name definition.defines
      exact ⟨position, name, definition, rfl, counted, atLeastOne, signal⟩

end OrderOfGrowth.Scan
