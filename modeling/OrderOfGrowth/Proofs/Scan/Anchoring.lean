import OrderOfGrowth.Proofs.Scan.Recursion

/-!
The leftmost definition of a source that grows at its end. A definition that the longer text might
have further left would lie in front of the leftmost one with its word, its parentheses and its
opening brace, and then it was there before (`leftmost_definition_append`).
-/

set_option autoImplicit false

namespace OrderOfGrowth.Scan

open Text (isNameChar isWhiteSpace)

theorem opens_body_append (s back : Text) (opens : OpensBody s) : OpensBody (s ++ back) := by
  obtain ⟨gap, parameters, space, body, rest, white, closed, blank, rfl⟩ := opens
  exact ⟨gap, parameters, space, body, rest ++ back, white, closed, blank, by simp⟩

theorem defines_at_append (source back : Text) (position : Nat) (name : Text)
    (defines : DefinesAt source position name) : DefinesAt (source ++ back) position name := by
  obtain ⟨before, after, rfl, rfl, run, opens⟩ := defines
  have opensLonger := opens_body_append after back opens
  exact ⟨before, after ++ back, by simp, rfl,
    ⟨run.nonempty, run.inside, run.left, opens_body_head _ opensLonger⟩, opensLonger⟩

-- White space and a mark that end in front of a word: the mark is in front of the word, too.
theorem mark_before_word (gap : Text) (mark : Char) (behind front : Text) (c : Char) (word : Text)
    (white : ∀ d ∈ gap, isWhiteSpace d = true) (inName : isNameChar c = true)
    (markOutside : isNameChar mark = false) (same : gap ++ mark :: behind = front ++ c :: word) :
    ∃ later, front = gap ++ mark :: later ∧ behind = later ++ c :: word := by
  have outside := not_inside isWhiteSpace gap c white (name_not_white c inName)
  obtain ⟨middle, frontEq, markEq⟩ := Text.cut_behind c gap _ front word outside same
  cases middle with
  | nil =>
      obtain ⟨rfl, -⟩ := List.cons.inj markEq
      rw [inName] at markOutside
      cases markOutside
  | cons d middle =>
      obtain ⟨rfl, rfl⟩ := List.cons.inj markEq
      exact ⟨middle, frontEq, rfl⟩

-- The first closing parenthesis is in front of the word or it is the one behind it.
theorem first_closing (parameters behind front between rest : Text) (closed : ')' ∉ parameters)
    (none : ')' ∉ between)
    (same : parameters ++ ')' :: behind = front ++ (between ++ ')' :: rest)) :
    (parameters = front ++ between ∧ behind = rest) ∨
      ∃ later, front = parameters ++ ')' :: later ∧ behind = later ++ (between ++ ')' :: rest) := by
  rcases List.append_eq_append_iff.mp same with ⟨middle, frontEq, closeEq⟩ | ⟨middle, paramEq, betweenEq⟩
  · cases middle with
    | nil =>
        cases between with
        | nil =>
            left
            obtain ⟨-, rfl⟩ := List.cons.inj closeEq
            exact ⟨by simpa using frontEq.symm, rfl⟩
        | cons d between =>
            obtain ⟨rfl, -⟩ := List.cons.inj closeEq
            exact absurd List.mem_cons_self none
    | cons d middle =>
        obtain ⟨rfl, rfl⟩ := List.cons.inj closeEq
        exact .inr ⟨middle, frontEq, rfl⟩
  · left
    have outside := fun w : Text => (Pattern.all_other_iff ')' w).mpr
    have closedMiddle : ')' ∉ middle := fun member => closed (paramEq ▸ List.mem_append_right _ member)
    have equal := longest_run_unique (· != ')') between middle (')' :: rest) (')' :: behind)
      (outside between none) (by simp) (outside middle closedMiddle) (by simp) betweenEq
    subst equal
    have ends := List.append_cancel_left betweenEq
    exact ⟨paramEq, (List.cons.inj ends).2.symm⟩

-- A body that opens in front of a word, in the text with `back` at its end, opens without it.
theorem opens_body_shorten (front name after back : Text) (nonempty : name ≠ [])
    (inside : ∀ c ∈ name, isNameChar c = true) (opens : OpensBody after)
    (opensLonger : OpensBody (front ++ (name ++ (after ++ back)))) :
    OpensBody (front ++ (name ++ after)) := by
  obtain ⟨gap, parameters, space, body, rest, white, closed, blank, rfl⟩ := opens
  obtain ⟨gap', parameters', space', body', rest', white', closed', blank', split⟩ := opensLonger
  cases name with
  | nil => exact absurd rfl nonempty
  | cons c name =>
      have inName := inside c List.mem_cons_self
      obtain ⟨later, rfl, paramSplit⟩ :=
        mark_before_word gap' '(' _ front c _ white' inName (by decide) split.symm
      have none : ')' ∉ c :: (name ++ (gap ++ '(' :: parameters)) := by
        have outsideWord := not_inside isNameChar _ ')' inside (by decide)
        have outsideGap := not_inside isWhiteSpace gap ')' white (by decide)
        rw [← List.cons_append]
        simp only [List.mem_append, List.mem_cons, not_or]
        exact ⟨by simpa using outsideWord, outsideGap, by decide, closed⟩
      have between : parameters' ++ ')' :: (space' ++ '{' :: (body' ++ '}' :: rest')) =
          later ++ (c :: (name ++ (gap ++ '(' :: parameters)) ++
            ')' :: (space ++ '{' :: (body ++ '}' :: (rest ++ back)))) := by
        simpa using paramSplit
      rcases first_closing _ _ _ _ _ closed' none between with ⟨rfl, _⟩ | ⟨later', rfl, bodySplit⟩
      · exact ⟨gap', _, space, body, rest, white', closed', blank, by simp⟩
      · obtain ⟨later, rfl, -⟩ :=
          mark_before_word space' '{' _ later' c _ blank' inName (by decide) bodySplit
        exact ⟨gap', parameters', space', later ++ (c :: (name ++ (gap ++ '(' :: (parameters ++
          ')' :: (space ++ '{' :: body))))), rest, white', closed', blank', by simp⟩

-- A word that starts in front of a whole word ends in front of it.
theorem word_before_word (other tail front behind : Text)
    (inside : ∀ c ∈ other, isNameChar c = true) (nonempty : front ≠ [])
    (edge : ∀ c ∈ front.getLast?, isNameChar c = false) (same : other ++ tail = front ++ behind) :
    ∃ later, front = other ++ later ∧ tail = later ++ behind := by
  rcases List.append_eq_append_iff.mp same with ⟨middle, frontEq, tailEq⟩ | ⟨middle, otherEq, _⟩
  · exact ⟨middle, frontEq, tailEq⟩
  · have last := List.getLast?_eq_some_getLast nonempty
    have inName := inside _ (otherEq ▸ List.mem_append_left _ (List.getLast_mem nonempty))
    rw [edge _ last] at inName
    cases inName

theorem leftmost_definition_append (source back : Text) (position : Nat) (name : Text)
    (definition : LeftmostDefinition source position name) :
    LeftmostDefinition (source ++ back) position name := by
  refine ⟨defines_at_append source back position name definition.defines, ?_⟩
  intro earlier other isEarlier defines
  obtain ⟨before, after, rfl, rfl, run, opens⟩ := definition.defines
  obtain ⟨front, tail, split, rfl, otherRun, otherOpens⟩ := defines
  have frontShorter : ∃ middle, before = front ++ middle ∧ middle ≠ [] ∧
      other ++ tail = middle ++ (name ++ (after ++ back)) := by
    have regrouped : before ++ (name ++ (after ++ back)) = front ++ (other ++ tail) := by
      simpa using split
    rcases List.append_eq_append_iff.mp regrouped with ⟨middle, frontEq, _⟩ | ⟨middle, beforeEq, same⟩
    · rw [frontEq, List.length_append] at isEarlier
      omega
    · refine ⟨middle, beforeEq, ?_, same⟩
      intro none
      rw [beforeEq, none, List.append_nil] at isEarlier
      omega
  obtain ⟨middle, rfl, nonempty, same⟩ := frontShorter
  have edge : ∀ c ∈ middle.getLast?, isNameChar c = false := by
    intro c last
    apply run.left c
    rw [List.getLast?_append, last]
    rfl
  obtain ⟨later, rfl, rfl⟩ := word_before_word other tail middle _ otherRun.inside nonempty edge same
  have shortened := opens_body_shorten later name after back run.nonempty run.inside opens otherOpens
  apply definition.leftmost front.length other isEarlier
  exact ⟨front, later ++ (name ++ after), by simp, rfl,
    ⟨otherRun.nonempty, otherRun.inside, otherRun.left, opens_body_head _ shortened⟩, shortened⟩

theorem call_sites_split (name source back : Text) :
    callSites name (source ++ back) = callSites name source +
      (List.range back.length).countP fun position =>
        isCallSite name (source ++ back) (source.length + position) := by
  have same : (List.range source.length).countP (isCallSite name (source ++ back)) =
      callSites name source := by
    apply List.countP_congr
    intro position member
    have inside := List.mem_range.mp member
    rw [isCallSite, isCallSite, List.getElem?_append_left inside,
      List.take_append_of_le_length (Nat.le_of_lt inside)]
  rw [← same, callSites, List.length_append, List.range_add, List.countP_append, List.countP_map]
  rfl

theorem call_sites_append (name source back : Text) :
    callSites name source ≤ callSites name (source ++ back) := by
  rw [call_sites_split]
  exact Nat.le_add_right _ _

theorem recursion_append (source back : Text) (recursion : Recursion)
    (found : recursion? source = some recursion) :
    ∃ grown, recursion? (source ++ back) = some grown ∧
      grown.functionName = recursion.functionName ∧ recursion.callCount ≤ grown.callCount := by
  obtain ⟨position, definition, counted, enough⟩ := recursion_some source recursion found
  have grows := call_sites_append recursion.functionName source back
  have kept := leftmost_definition_append source back position _ definition
  have signal := (recursion_of_definition _ position _ kept).2
  rw [if_pos (by omega)] at signal
  refine ⟨_, signal, rfl, ?_⟩
  rw [counted]
  exact grows

end OrderOfGrowth.Scan
