import OrderOfGrowth.Proofs.Json.Scalars

/-!
JSON values, printed and read back. On every level, and whatever follows, a reader takes exactly the
printed value off the front (`value_printed`), so a printed document reads as the value (`parse_pretty`).
-/

set_option autoImplicit false

namespace OrderOfGrowth.Json

mutual

-- Values without floating point numbers, whose whole numbers fit into 64 bits.
def Exact : Json → Prop
  | .integer z => FitsNumber z
  | .float _ => False
  | .array items => ExactItems items
  | .object members => ExactMembers members
  | _ => True

def ExactItems : List Json → Prop
  | [] => True
  | item :: items => Exact item ∧ ExactItems items

def ExactMembers : List (Text × Json) → Prop
  | [] => True
  | (_, value) :: members => Exact value ∧ ExactMembers members

end

theorem skip_blanks_stop (c : Char) (s : Text) (solid : isBlank c = false) : skipBlanks (c :: s) = c :: s := by
  rw [skipBlanks, List.dropWhile_cons, solid]
  rfl

theorem skip_new_line (level : Nat) (s : Text) : skipBlanks (newLine level ++ s) = skipBlanks s := by
  have blank : ∀ c ∈ newLine level, isBlank c = true := by
    intro c member
    rw [newLine, List.mem_cons, List.mem_replicate] at member
    rcases member with rfl | ⟨-, rfl⟩ <;> rfl
  rw [skipBlanks, List.dropWhile_append_of_pos blank]
  rfl

-- A text that starts with no blank, and not as a list ends.
def Opens (text : Text) : Prop :=
  ∃ c s, text = c :: s ∧ isBlank c = false ∧ c ≠ ']'

theorem opens_append (text rest : Text) (opens : Opens text) : Opens (text ++ rest) := by
  obtain ⟨c, s, rfl, solid, other⟩ := opens
  exact ⟨c, s ++ rest, rfl, solid, other⟩

theorem number_starts (z : Int) :
    ∃ c s, Text.signedDecimal z = c :: s ∧ ∀ other : Char, other ≠ '-' → other.isDigit = false → c ≠ other := by
  rw [Text.signedDecimal]
  split
  · exact ⟨'-', _, rfl, fun other noSign _ => noSign.symm⟩
  · cases digits : Text.decimal z.natAbs with
    | nil => exact absurd digits (Text.decimal_ne_nil _)
    | cons c more =>
        have digit := Text.decimal_digits z.natAbs c (digits ▸ List.mem_cons_self)
        exact ⟨c, more, rfl, fun other _ outside => digit_not c other digit outside⟩

theorem number_opens (z : Int) : Opens (Text.signedDecimal z) := by
  obtain ⟨c, s, shape, other⟩ := number_starts z
  refine ⟨c, s, shape, ?_, other ']' (by decide) (by decide)⟩
  simp [isBlank, other ' ' (by decide) (by decide), other '\t' (by decide) (by decide),
    other '\n' (by decide) (by decide), other '\r' (by decide) (by decide)]

theorem print_opens (level : Nat) (value : Json) (exact : Exact value) : Opens (print level value) := by
  cases value with
  | null => exact ⟨'n', _, rfl, by decide, by decide⟩
  | bool b => cases b <;> exact ⟨_, _, rfl, by decide, by decide⟩
  | integer z => exact number_opens z
  | float x => exact absurd exact id
  | string s => exact ⟨'"', _, rfl, by decide, by decide⟩
  | array items => cases items <;> exact ⟨'[', _, rfl, by decide, by decide⟩
  | object members => cases members <;> exact ⟨'{', _, rfl, by decide, by decide⟩

theorem ends_new_line (level : Nat) (s : Text) : EndsNumber (newLine level ++ s) := by
  intro c first
  rw [newLine, List.cons_append, List.head?_cons, Option.mem_some_iff] at first
  subst first
  decide

theorem ends_comma (s : Text) : EndsNumber (',' :: s) := by
  intro c first
  rw [List.head?_cons, Option.mem_some_iff] at first
  subst first
  decide

theorem ends_items (level close : Nat) (items : List Json) (s : Text) :
    EndsNumber (printItems level items ++ (newLine close ++ s)) := by
  cases items with
  | nil => exact ends_new_line close s
  | cons item items =>
      rw [printItems]
      exact ends_comma _

theorem ends_members (level close : Nat) (members : List (Text × Json)) (s : Text) :
    EndsNumber (printMembers level members ++ (newLine close ++ s)) := by
  cases members with
  | nil => exact ends_new_line close s
  | cons member members =>
      rw [printMembers]
      exact ends_comma _

section Steps

variable (fuel level : Nat) (text rest : Text)

theorem value_skips (s t : Text) (same : skipBlanks s = skipBlanks t) : value? fuel s = value? fuel t := by
  cases fuel with
  | zero => rw [value?, value?]
  | succ fuel => rw [value?, value?, same]

theorem value_of_number (z : Int) (found : number? (Text.signedDecimal z ++ text) = some (.integer z, rest)) :
    value? (fuel + 1) (Text.signedDecimal z ++ text) = some (.integer z, rest) := by
  obtain ⟨c, s, shape, solid, -⟩ := number_opens z
  obtain ⟨d, t, again, other⟩ := number_starts z
  obtain ⟨rfl, rfl⟩ := List.cons.inj (shape.symm.trans again)
  rw [shape, List.cons_append] at found ⊢
  rw [value?, skip_blanks_stop c _ solid]
  split
  · rename_i same
    cases same
  iterate 6
    · rename_i same
      exact absurd (List.cons.inj same).1 (other _ (by decide) (by decide))
  · exact found

theorem value_of_array (item : Json) (items : List Json) (middle : Text) (opens : Opens text)
    (first : value? fuel text = some (item, middle)) (more : items? fuel middle = some (items, rest)) :
    value? (fuel + 1) ('[' :: (newLine level ++ text)) = some (.array (item :: items), rest) := by
  obtain ⟨c, s, rfl, solid, other⟩ := opens
  have start := skip_blanks_stop '[' (newLine level ++ c :: s) rfl
  simp only [value?, start, skip_new_line, skip_blanks_stop c s solid]
  split
  · rename_i same
    exact absurd (List.cons.inj same).1 other
  · simp [first, more]

theorem value_of_object (first : Text × Json) (members : List (Text × Json)) (middle : Text)
    (named : namedValue? fuel ('"' :: text) = some (first, middle))
    (more : members? fuel middle = some (members, rest)) :
    value? (fuel + 1) ('{' :: (newLine level ++ '"' :: text)) = some (.object (first :: members), rest) := by
  have start := skip_blanks_stop '{' (newLine level ++ '"' :: text) rfl
  simp only [value?, start, skip_new_line, skip_blanks_stop '"' text rfl]
  simp [named, more]

theorem items_of_comma (item : Json) (items : List Json) (middle : Text)
    (first : value? fuel text = some (item, middle)) (more : items? fuel middle = some (items, rest)) :
    items? (fuel + 1) (',' :: text) = some (item :: items, rest) := by
  rw [items?, skip_blanks_stop _ _ rfl]
  simp [first, more]

theorem members_of_comma (first : Text × Json) (members : List (Text × Json)) (middle : Text)
    (named : namedValue? fuel text = some (first, middle))
    (more : members? fuel middle = some (members, rest)) :
    members? (fuel + 1) (',' :: text) = some (first :: members, rest) := by
  rw [members?, skip_blanks_stop _ _ rfl]
  simp [named, more]

theorem named_skips (s t : Text) (same : skipBlanks s = skipBlanks t) :
    namedValue? fuel s = namedValue? fuel t := by
  cases fuel with
  | zero => rw [namedValue?, namedValue?]
  | succ fuel => rw [namedValue?, namedValue?, same]

theorem named_of_string (name : Text) (value : Json) (found : value? fuel text = some (value, rest)) :
    namedValue? (fuel + 1) (printString name ++ (": ".toList ++ text)) = some ((name, value), rest) := by
  have start : skipBlanks (printString name ++ (": ".toList ++ text)) = printString name ++ (": ".toList ++ text) :=
    skip_blanks_stop '"' _ rfl
  have behind : value? fuel (' ' :: text) = some (value, rest) :=
    (value_skips fuel (' ' :: text) text rfl).trans found
  have colon : skipBlanks (':' :: ' ' :: text) = ':' :: ' ' :: text := skip_blanks_stop ':' _ rfl
  rw [namedValue?, start, string_printed]
  simp [colon, behind]

end Steps

mutual

theorem value_printed (value : Json) (exact : Exact value) (level fuel : Nat) (rest : Text)
    (ends : EndsNumber rest) (enough : 2 * (print level value).length ≤ fuel) :
    value? fuel (print level value ++ rest) = some (value, rest) := by
  have opens : 1 ≤ (print level value).length := by
    obtain ⟨c, s, shape, -, -⟩ := print_opens level value exact
    simp [shape]
  obtain ⟨fuel, rfl⟩ : ∃ more, fuel = more + 1 := ⟨fuel - 1, by omega⟩
  cases value with
  | null => rfl
  | bool b => cases b <;> rfl
  | integer z => exact value_of_number fuel rest rest z (number_printed z exact rest ends)
  | float x => exact absurd exact id
  | string s =>
      have start : skipBlanks (printString s ++ rest) = printString s ++ rest := skip_blanks_stop '"' _ rfl
      have read := string_printed s rest
      rw [print, value?, start]
      exact congrArg (Option.map fun found => (Json.string found.1, found.2)) read
  | array items =>
      cases items with
      | nil => rfl
      | cons item items =>
          obtain ⟨itemExact, itemsExact⟩ := exact
          simp only [print, List.cons_append, List.append_assoc, List.length_cons, List.length_append] at enough ⊢
          have first := value_printed item itemExact (level + 1) fuel _
            (ends_items (level + 1) level items (']' :: rest)) (by omega)
          have more := items_printed items itemsExact (level + 1) level fuel rest (by omega)
          exact value_of_array fuel (level + 1) _ rest item items _
            (opens_append _ _ (print_opens (level + 1) item itemExact)) first more
  | object members =>
      cases members with
      | nil => rfl
      | cons member members =>
          obtain ⟨name, value⟩ := member
          obtain ⟨valueExact, membersExact⟩ := exact
          simp only [print, List.cons_append, List.append_assoc, List.length_cons, List.length_append] at enough ⊢
          have found := value_printed value valueExact (level + 1) (fuel - 1) _
            (ends_members (level + 1) level members ('}' :: rest)) (by omega)
          have named := named_of_string (fuel - 1) _ _ name value found
          rw [Nat.sub_add_cancel (by omega)] at named
          have more := members_printed members membersExact (level + 1) level fuel rest (by omega)
          exact value_of_object fuel (level + 1) _ rest _ members _ named more

theorem items_printed (items : List Json) (exact : ExactItems items) (level close fuel : Nat) (rest : Text)
    (enough : 2 * (printItems level items).length + 1 ≤ fuel) :
    items? fuel (printItems level items ++ (newLine close ++ ']' :: rest)) = some (items, rest) := by
  obtain ⟨fuel, rfl⟩ : ∃ more, fuel = more + 1 := ⟨fuel - 1, by omega⟩
  cases items with
  | nil =>
      rw [printItems, List.nil_append, items?, skip_new_line, skip_blanks_stop ']' rest rfl]
      rfl
  | cons item items =>
      obtain ⟨itemExact, itemsExact⟩ := exact
      simp only [printItems, List.cons_append, List.append_assoc, List.length_cons, List.length_append]
        at enough ⊢
      have first := value_printed item itemExact level fuel _
        (ends_items level close items (']' :: rest)) (by omega)
      have more := items_printed items itemsExact level close fuel rest (by omega)
      rw [← value_skips fuel _ _ (skip_new_line level _)] at first
      exact items_of_comma fuel _ rest item items _ first more

theorem members_printed (members : List (Text × Json)) (exact : ExactMembers members) (level close fuel : Nat)
    (rest : Text) (enough : 2 * (printMembers level members).length + 1 ≤ fuel) :
    members? fuel (printMembers level members ++ (newLine close ++ '}' :: rest)) = some (members, rest) := by
  obtain ⟨fuel, rfl⟩ : ∃ more, fuel = more + 1 := ⟨fuel - 1, by omega⟩
  cases members with
  | nil =>
      rw [printMembers, List.nil_append, members?, skip_new_line, skip_blanks_stop '}' rest rfl]
      rfl
  | cons member members =>
      obtain ⟨name, value⟩ := member
      obtain ⟨valueExact, membersExact⟩ := exact
      simp only [printMembers, List.cons_append, List.append_assoc, List.length_cons, List.length_append]
        at enough ⊢
      have found := value_printed value valueExact level (fuel - 1) _
        (ends_members level close members ('}' :: rest)) (by omega)
      have named := named_of_string (fuel - 1) _ _ name value found
      rw [Nat.sub_add_cancel (by omega), ← named_skips fuel _ _ (skip_new_line level _)] at named
      have more := members_printed members membersExact level close fuel rest (by omega)
      exact members_of_comma fuel _ rest (name, value) members _ named more

end

/-- A printed value is a document that reads as the value; blanks may follow it. -/
theorem parse_pretty (value : Json) (exact : Exact value) (blanks : Text)
    (blank : ∀ c ∈ blanks, isBlank c = true) : parse? (pretty value ++ blanks) = some value := by
  have ends : EndsNumber blanks := by
    intro c first
    have inside := blank c (List.mem_of_mem_head? first)
    simp only [isBlank, Bool.or_eq_true, beq_iff_eq] at inside
    rcases inside with ((rfl | rfl) | rfl) | rfl <;> decide
  have left : skipBlanks blanks = [] := by
    rw [← List.append_nil blanks, skipBlanks, List.dropWhile_append_of_pos blank]
    rfl
  have enough : 2 * (print 0 value).length ≤ 2 * (print 0 value ++ blanks).length + 1 := by
    rw [List.length_append]
    omega
  rw [parse?, pretty, value_printed value exact 0 _ blanks ends enough]
  simp only [left, if_true]

end OrderOfGrowth.Json
