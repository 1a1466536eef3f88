import OrderOfGrowth.Proofs.Scan.Definitions
import OrderOfGrowth.Proofs.Text.Simulation
import OrderOfGrowth.Scan.Search

/-!
The search classifiers, said by headers. The header of a parenthesis is the text up to the first
closing one. Each shape comes to a word in front of a parenthesis and to marks in the header, or to a
sum in front of any closing parenthesis, however the gaps of the pattern divide the text between them
(`searches_exact`).
-/

set_option autoImplicit false

namespace OrderOfGrowth.Scan

open Text (isWhiteSpace)

-- What stands behind an opening parenthesis in front of the first closing one.
def untilClosing (behind : Text) : Text :=
  behind.takeWhile (· != ')')

def header? (behind : Text) : Option Text :=
  if ')' ∈ behind then some (untilClosing behind) else none

-- A word, white space and an opening parenthesis somewhere in a source, with this text behind them.
def Heads (word source behind : Text) : Prop :=
  ∃ before gap, source = before ++ (word ++ (gap ++ '(' :: behind)) ∧ ∀ c ∈ gap, isWhiteSpace c = true

def HasHeader (word source : Text) (passes : Text → Prop) : Prop :=
  ∃ behind header, Heads word source behind ∧ header? behind = some header ∧ passes header

def HasMidpoint (source : Text) : Prop :=
  ∃ before gap between left right after : Text,
    source = before ++ ("mid".toList ++ (gap ++ '=' :: (between ++ ("low".toList ++ (left ++ '+' ::
      (right ++ ("high".toList ++ after))))))) ∧
    (∀ c ∈ gap, isWhiteSpace c = true) ∧ ')' ∉ between ∧ (∀ c ∈ left, isWhiteSpace c = true) ∧
    ∀ c ∈ right, isWhiteSpace c = true

def HasElseIf (source : Text) : Prop :=
  ∃ space behind, space ≠ [] ∧ (∀ c ∈ space, isWhiteSpace c = true) ∧
    Heads ("else".toList ++ (space ++ "if".toList)) source behind ∧ '<' ∈ untilClosing behind

def HasEquality (source : Text) : Prop :=
  HasHeader "if".toList source fun header => "==".toList <:+: header

structure BinarySearch (source : Text) : Prop where
  bounded : HasHeader "while".toList source fun header => '<' ∈ header
  middle : HasMidpoint source
  equality : HasEquality source
  elseIf : HasElseIf source

structure LinearSearch (source : Text) : Prop where
  bounded : HasHeader "for".toList source fun header => List.Sublist "i<n".toList header
  equality : HasEquality source

theorem until_closing_front (front rest : Text) (inside : ')' ∉ front) :
    untilClosing (front ++ ')' :: rest) = front := by
  have passes := (Pattern.all_other_iff ')' front).mpr inside
  rw [untilClosing, List.takeWhile_append_of_pos passes]
  simp

theorem header_some_iff (behind header : Text) :
    header? behind = some header ↔ ')' ∉ header ∧ ∃ rest, behind = header ++ ')' :: rest := by
  constructor
  · intro found
    by_cases closed : ')' ∈ behind
    · obtain ⟨front, rest, rfl, inside⟩ := List.eq_append_cons_of_mem closed
      rw [header?, if_pos closed, until_closing_front front rest inside, Option.some.injEq] at found
      subst found
      exact ⟨inside, rest, rfl⟩
    · simp [header?, closed] at found
  · intro shape
    obtain ⟨inside, rest, rfl⟩ := shape
    rw [header?, if_pos (by simp), until_closing_front header rest inside]

theorem mem_until_closing (c : Char) (behind : Text) (other : c ≠ ')') :
    c ∈ untilClosing behind ↔ ∃ front rest, ')' ∉ front ∧ behind = front ++ c :: rest := by
  have split : untilClosing behind ++ behind.dropWhile (· != ')') = behind :=
    List.takeWhile_append_dropWhile
  constructor
  · intro member
    obtain ⟨front, rest, parted⟩ := List.append_of_mem member
    refine ⟨front, rest ++ behind.dropWhile (· != ')'), ?_, ?_⟩
    · intro closing
      have inside : ')' ∈ untilClosing behind := parted ▸ List.mem_append_left _ closing
      simpa using List.mem_takeWhile_imp inside
    · calc behind = untilClosing behind ++ behind.dropWhile (· != ')') := split.symm
        _ = front ++ c :: (rest ++ behind.dropWhile (· != ')')) := by rw [parted]; simp
  · intro shape
    obtain ⟨front, rest, inside, rfl⟩ := shape
    have passes := (Pattern.all_other_iff ')' (front ++ [c])).mpr (by simp [inside, other.symm])
    have regrouped : front ++ c :: rest = (front ++ [c]) ++ rest := by simp
    rw [untilClosing, regrouped, List.takeWhile_append_of_pos passes]
    simp

-- Whatever the parts of a header are, they have no closing parenthesis, so it ends at the first one.
theorem fits_closed_iff (parts : List Pattern) (behind : Text)
    (open_ : (Pattern.sequence parts).EachTest (· ')' = false) (· ')' = false)) :
    (Pattern.sequence (parts ++ [.one ')'])).Fits behind ↔
      ∃ header, header? behind = some header ∧ (Pattern.sequence parts).Accepts header := by
  simp only [header_some_iff, Pattern.fits_sequence_append, Pattern.fits_sequence_cons,
    Pattern.fits_sequence_nil, Pattern.accepts_one, exists_eq_left, and_true]
  constructor
  · intro parted
    obtain ⟨header, accepted, _, rfl, rest, rfl⟩ := parted
    exact ⟨header, ⟨Pattern.accepts_avoids _ _ _ open_ accepted, rest, rfl⟩, accepted⟩
  · intro shape
    obtain ⟨header, ⟨-, rest, rfl⟩, accepted⟩ := shape
    exact ⟨header, accepted, _, rfl, rest, rfl⟩

theorem occurs_heads_iff (word : Text) (parts : List Pattern) (source : Text) :
    (Pattern.sequence (.text word :: .white :: .one '(' :: parts)).occurs source = true ↔
      ∃ behind, Heads word source behind ∧ (Pattern.sequence parts).Fits behind := by
  simp only [Pattern.occurs_iff_fits, Pattern.fits_sequence_cons, Pattern.accepts_text,
    Pattern.accepts_white, Pattern.accepts_one, exists_eq_left]
  constructor
  · intro found
    obtain ⟨before, _, rfl, _, rfl, gap, white, _, rfl, behind, rfl, fits⟩ := found
    exact ⟨behind, ⟨before, gap, rfl, white⟩, fits⟩
  · intro shape
    obtain ⟨behind, ⟨before, gap, rfl, white⟩, fits⟩ := shape
    exact ⟨before, _, rfl, _, rfl, gap, white, _, rfl, behind, rfl, fits⟩

-- A word in front of a header, with the parts of the header in it.
theorem occurs_header_iff (word : Text) (parts : List Pattern) (passes : Text → Prop) (source : Text)
    (open_ : (Pattern.sequence parts).EachTest (· ')' = false) (· ')' = false))
    (same : ∀ header, ')' ∉ header → ((Pattern.sequence parts).Accepts header ↔ passes header)) :
    (Pattern.sequence (.text word :: .white :: .one '(' :: (parts ++ [.one ')']))).occurs source = true ↔
      HasHeader word source passes := by
  rw [occurs_heads_iff]
  constructor
  · intro found
    obtain ⟨behind, heads, fits⟩ := found
    obtain ⟨header, ends, accepted⟩ := (fits_closed_iff parts behind open_).mp fits
    have inside := ((header_some_iff behind header).mp ends).1
    exact ⟨behind, header, heads, ends, (same header inside).mp accepted⟩
  · intro shape
    obtain ⟨behind, header, heads, ends, passed⟩ := shape
    have inside := ((header_some_iff behind header).mp ends).1
    exact ⟨behind, heads, (fits_closed_iff parts behind open_).mpr ⟨header, ends, (same header inside).mpr passed⟩⟩

theorem bounded_while_iff (source : Text) :
    boundedWhile.occurs source = true ↔
      HasHeader "while".toList source fun header => '<' ∈ header := by
  apply occurs_header_iff _ [.except ')', .one '<', .optional (.one '='), .except ')'] _ _ (by decide)
  intro header inside
  simp only [Pattern.accepts_sequence_cons, Pattern.accepts_sequence_nil, Pattern.accepts_except,
    Pattern.accepts_one, Pattern.accepts_optional]
  constructor
  · intro parted
    obtain ⟨front, _, -, ⟨_, _, rfl, -, rfl⟩, rfl⟩ := parted
    simp
  · intro member
    obtain ⟨front, rest, rfl⟩ := List.append_of_mem member
    rw [List.mem_append, List.mem_cons, not_or, not_or] at inside
    exact ⟨front, _, inside.1, ⟨_, _, rfl, ⟨[], _, .inr rfl, ⟨rest, [], inside.2.2, rfl, by simp⟩, rfl⟩, rfl⟩, rfl⟩

theorem equality_if_iff (source : Text) : equalityIf.occurs source = true ↔ HasEquality source := by
  apply occurs_header_iff _ [.except ')', .text "==".toList, .except ')'] _ _ (by decide)
  intro header inside
  simp only [Pattern.accepts_sequence_cons, Pattern.accepts_sequence_nil, Pattern.accepts_except,
    Pattern.accepts_text]
  constructor
  · intro parted
    obtain ⟨front, _, -, ⟨_, _, rfl, ⟨rest, _, -, rfl, rfl⟩, rfl⟩, rfl⟩ := parted
    exact ⟨front, rest, by simp⟩
  · intro shape
    obtain ⟨front, rest, rfl⟩ := shape
    rw [List.mem_append, List.mem_append, not_or, not_or] at inside
    exact ⟨front, _, inside.1.1, ⟨_, _, rfl, ⟨rest, [], inside.2, rfl, rfl⟩, rfl⟩, by simp⟩

theorem marks_in_order (mark : Char) (marks s : Text) :
    List.Sublist (mark :: marks) s ↔ ∃ front rest, s = front ++ mark :: rest ∧ List.Sublist marks rest := by
  rw [List.cons_sublist_iff]
  constructor
  · intro shape
    obtain ⟨first, later, rfl, member, inOrder⟩ := shape
    obtain ⟨front, rest, rfl⟩ := List.append_of_mem member
    exact ⟨front, rest ++ later, by simp, List.sublist_append_of_sublist_right inOrder⟩
  · intro shape
    obtain ⟨front, rest, rfl, inOrder⟩ := shape
    exact ⟨front ++ [mark], rest, by simp, by simp, inOrder⟩

theorem index_bounded_for_iff (source : Text) :
    indexBoundedFor.occurs source = true ↔
      HasHeader "for".toList source fun header => List.Sublist "i<n".toList header := by
  apply occurs_header_iff _ [.except ')', .one 'i', .except ')', .one '<', .except ')', .one 'n',
    .except ')'] _ _ (by decide)
  intro header inside
  have marks : "i<n".toList = ['i', '<', 'n'] := rfl
  simp only [Pattern.accepts_sequence_cons, Pattern.accepts_sequence_nil, Pattern.accepts_except,
    Pattern.accepts_one, marks, marks_in_order]
  constructor
  · intro parted
    obtain ⟨first, _, -, ⟨_, _, rfl, ⟨second, _, -, ⟨_, _, rfl, ⟨third, _, -, ⟨_, rest, rfl, -, rfl⟩, rfl⟩, rfl⟩,
      rfl⟩, rfl⟩, rfl⟩ := parted
    exact ⟨first, _, rfl, second, _, rfl, third, rest, rfl, List.nil_sublist rest⟩
  · intro shape
    obtain ⟨first, _, rfl, second, _, rfl, third, rest, rfl, -⟩ := shape
    simp only [List.mem_append, List.mem_cons, not_or] at inside
    obtain ⟨inFirst, -, inSecond, -, inThird, -, inRest⟩ := inside
    exact ⟨first, _, inFirst, ⟨_, _, rfl, ⟨second, _, inSecond, ⟨_, _, rfl, ⟨third, _, inThird,
      ⟨_, _, rfl, ⟨rest, [], inRest, rfl, by simp⟩, rfl⟩, rfl⟩, rfl⟩, rfl⟩, rfl⟩, rfl⟩

theorem else_if_less_iff (source : Text) : elseIfLess.occurs source = true ↔ HasElseIf source := by
  simp only [elseIfLess, Pattern.occurs_iff_fits, Pattern.fits_sequence_cons, Pattern.fits_sequence_nil,
    Pattern.accepts_text, Pattern.accepts_some_run, Pattern.accepts_white, Pattern.accepts_except,
    Pattern.accepts_one, exists_eq_left, and_true]
  constructor
  · intro found
    obtain ⟨before, _, rfl, _, rfl, space, ⟨nonempty, blank⟩, _, rfl, _, rfl, gap, white, _, rfl, _, rfl, front,
      inside, _, rfl, rest, rfl⟩ := found
    refine ⟨space, front ++ '<' :: rest, nonempty, blank, ⟨before, gap, by simp, white⟩, ?_⟩
    exact (mem_until_closing '<' _ (by decide)).mpr ⟨front, rest, inside, rfl⟩
  · intro shape
    obtain ⟨space, behind, nonempty, blank, ⟨before, gap, rfl, white⟩, member⟩ := shape
    obtain ⟨front, rest, inside, rfl⟩ := (mem_until_closing '<' behind (by decide)).mp member
    exact ⟨before, _, rfl, _, by simp, space, ⟨nonempty, blank⟩, _, rfl, _, rfl, gap, white, _, rfl, _, rfl, front,
      inside, _, rfl, rest, rfl⟩

-- The gap in front of the sum also takes what the optional parts around it would, and the sum can be
-- the end of the shape.
theorem midpoint_iff (source : Text) : midpoint.occurs source = true ↔ HasMidpoint source := by
  simp only [midpoint, Pattern.occurs_iff_fits, Pattern.fits_sequence_cons, Pattern.fits_sequence_nil,
    Pattern.accepts_text, Pattern.accepts_white, Pattern.accepts_except, Pattern.accepts_optional,
    Pattern.accepts_one, exists_eq_left, and_true]
  constructor
  · intro found
    obtain ⟨before, _, rfl, _, rfl, gap, white, _, rfl, _, rfl, space, blank, _, rfl, paren, parenShape, _, rfl,
      between, inside, _, rfl, _, rfl, left, whiteLeft, _, rfl, _, rfl, right, whiteRight, _, rfl, after, rfl,
      -⟩ := found
    refine ⟨before, gap, space ++ (paren ++ between), left, right, after, by simp, white, ?_, whiteLeft, whiteRight⟩
    have noSpace : ')' ∉ space := not_inside isWhiteSpace space ')' blank (by decide)
    have noParen : ')' ∉ paren := by
      rcases parenShape with rfl | rfl <;> decide
    simp [noSpace, noParen, inside]
  · intro shape
    obtain ⟨before, gap, between, left, right, after, rfl, white, inside, whiteLeft, whiteRight⟩ := shape
    exact ⟨before, _, rfl, _, rfl, gap, white, _, rfl, _, rfl, [], by simp, _, rfl, [], .inr rfl, _, rfl,
      between, inside, _, rfl, _, rfl, left, whiteLeft, _, rfl, _, rfl, right, whiteRight, _, rfl, after, rfl,
      [], by simp, after, rfl, [], .inr rfl, after, rfl⟩

/-- A binary search is found exactly if all four shapes stand somewhere in the source, a linear search
exactly if its bounded header and the equality do. -/
theorem searches_exact (source : Text) :
    (isBinarySearch source = true ↔ BinarySearch source) ∧
      (isLinearSearch source = true ↔ LinearSearch source) := by
  simp only [isBinarySearch, isLinearSearch, Bool.and_eq_true, bounded_while_iff, midpoint_iff,
    equality_if_iff, else_if_less_iff, index_bounded_for_iff]
  constructor
  · constructor
    · intro found
      obtain ⟨⟨⟨bounded, middle⟩, equality⟩, elseIf⟩ := found
      exact ⟨bounded, middle, equality, elseIf⟩
    · intro found
      exact ⟨⟨⟨found.bounded, found.middle⟩, found.equality⟩, found.elseIf⟩
  · constructor
    · intro found
      exact ⟨found.1, found.2⟩
    · intro found
      exact ⟨found.bounded, found.equality⟩

end OrderOfGrowth.Scan
