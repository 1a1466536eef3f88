import OrderOfGrowth.Settings.Layer

/-!
Layers put onto each other. A member of a merged table is what the newer members of its name make of the
older one (`lookup_override_members`), so what two bases make of the same newer layer can be compared
member by member (`members_kept`). Merged tables give no name twice (`override_members_distinct`), and of
such tables one member alone counts for a name (`fold_of_distinct`).
-/

set_option autoImplicit false

namespace OrderOfGrowth.Settings.Layered

-- What becomes of what is below when a value is put onto it.
def onto (value : Layered) : Option Layered → Layered
  | some below => override value below
  | none => value

theorem lookup_other {α : Type} (name sought : Text) (value : α) (members : List (Text × α))
    (other : name ≠ sought) : ((name, value) :: members).lookup sought = members.lookup sought := by
  have differ : (sought == name) = false := beq_eq_false_iff_ne.mpr other.symm
  rw [List.lookup_cons, differ]

theorem lookup_update (name sought : Text) (change : Option Layered → Layered)
    (members : List (Text × Layered)) :
    (update name change members).lookup sought =
      if name = sought then some (change (members.lookup sought)) else members.lookup sought := by
  induction members with
  | nil =>
      by_cases here : name = sought
      · subst here
        simp [update]
      · rw [update, lookup_other _ _ _ _ here, if_neg here]
  | cons member members ih =>
      obtain ⟨other, value⟩ := member
      by_cases found : other = name
      · subst found
        rw [update, if_pos rfl]
        by_cases here : other = sought
        · subst here
          simp
        · rw [lookup_other _ _ _ _ here, lookup_other _ _ _ _ here, if_neg here]
      · rw [update, if_neg found]
        by_cases here : other = sought
        · subst here
          rw [List.lookup_cons_self, List.lookup_cons_self, if_neg (Ne.symm found)]
        · rw [lookup_other _ _ _ _ here, lookup_other _ _ _ _ here, ih]

def ontoMember (sought : Text) (found : Option Layered) (member : Text × Layered) : Option Layered :=
  if member.1 = sought then some (onto member.2 found) else found

theorem lookup_override_members (members older : List (Text × Layered)) (sought : Text) :
    (overrideMembers members older).lookup sought =
      members.foldl (ontoMember sought) (older.lookup sought) := by
  induction members generalizing older with
  | nil => rw [overrideMembers, List.foldl_nil]
  | cons member members ih =>
      obtain ⟨name, value⟩ := member
      rw [overrideMembers, ih, lookup_update]
      rfl

theorem onto_leaf (source : Source) (value : Value) (below : Option Layered) :
    onto (.leaf source value) below = .leaf source value := by
  cases below with
  | none => rfl
  | some below => rw [onto, override]

theorem onto_table (source : Source) (members : List (Text × Layered)) (below : Option Layered) :
    ∃ merged, onto (.table source members) below = .table source merged := by
  cases below with
  | none => exact ⟨members, rfl⟩
  | some below => cases below <;> exact ⟨_, by rw [onto, override]⟩

-- What newer members make of two things is related if each of them keeps the relation.
theorem members_kept (related : Option Layered → Option Layered → Prop)
    (kept : ∀ value one other, related one other → related (some (onto value one)) (some (onto value other)))
    (sought : Text) (members : List (Text × Layered)) (one other : Option Layered)
    (start : related one other) :
    related (members.foldl (ontoMember sought) one) (members.foldl (ontoMember sought) other) := by
  induction members generalizing one other with
  | nil => exact start
  | cons member members ih =>
      apply ih
      by_cases here : member.1 = sought
      · simp only [ontoMember, if_pos here]
        exact kept member.2 one other start
      · simp only [ontoMember, if_neg here]
        exact start

-- No name is given twice.
def Distinct (members : List (Text × Layered)) : Prop :=
  (members.map Prod.fst).Nodup

theorem update_names (name : Text) (change : Option Layered → Layered) (members : List (Text × Layered)) :
    (update name change members).map Prod.fst =
      if name ∈ members.map Prod.fst then members.map Prod.fst else members.map Prod.fst ++ [name] := by
  induction members with
  | nil => rfl
  | cons member members ih =>
      obtain ⟨other, value⟩ := member
      rw [update]
      by_cases found : other = name
      · simp [found]
      · rw [if_neg found, List.map_cons, List.map_cons, ih]
        by_cases later : name ∈ members.map Prod.fst
        · rw [if_pos later, if_pos (List.mem_cons_of_mem _ later)]
        · rw [if_neg later, if_neg (List.not_mem_cons_of_ne_of_not_mem (Ne.symm found) later), List.cons_append]

theorem override_members_distinct (members older : List (Text × Layered)) (distinct : Distinct older) :
    Distinct (overrideMembers members older) := by
  induction members generalizing older with
  | nil => exact distinct
  | cons member members ih =>
      obtain ⟨name, value⟩ := member
      rw [overrideMembers]
      apply ih
      rw [Distinct, update_names]
      split
      · exact distinct
      · rename_i absent
        refine List.nodup_append.mpr ⟨distinct, by simp, fun other member _ new same => ?_⟩
        rw [same, List.mem_singleton.mp new] at member
        exact absent member

-- Of members without a second one of their name, the one that is looked up is all that counts.
theorem fold_of_distinct (sought : Text) (members : List (Text × Layered)) (found : Option Layered)
    (distinct : Distinct members) :
    members.foldl (ontoMember sought) found =
      match members.lookup sought with
      | some value => some (onto value found)
      | none => found := by
  induction members generalizing found with
  | nil => rfl
  | cons member members ih =>
      obtain ⟨name, value⟩ := member
      obtain ⟨first, others⟩ := List.nodup_cons.mp distinct
      rw [List.foldl_cons, ih _ others]
      by_cases here : name = sought
      · subst here
        have absent : members.lookup name = none := by
          rw [List.lookup_eq_none_iff]
          intro other member
          have differ := fun same => first (List.mem_map.mpr ⟨other, member, same⟩)
          simpa using Ne.symm differ
        rw [absent, List.lookup_cons_self, ontoMember, if_pos rfl]
      · rw [lookup_other _ _ _ _ here, ontoMember, if_neg here]

-- Newer tables take no member away.
theorem members_stay (sought : Text) (members : List (Text × Layered)) (found : Layered) :
    ∃ kept, members.foldl (ontoMember sought) (some found) = some kept := by
  induction members generalizing found with
  | nil => exact ⟨found, rfl⟩
  | cons member members ih =>
      rw [List.foldl_cons]
      by_cases here : member.1 = sought
      · rw [ontoMember, if_pos here]
        exact ih _
      · rw [ontoMember, if_neg here]
        exact ih _

-- A table that has members of these names.
def HasMembers (names : List Text) (merged : Layered) : Prop :=
  ∃ source members, merged = .table source members ∧
    ∀ name ∈ names, ∃ value, List.lookup name members = some value

theorem override_has_members (names : List Text) (source : Source) (members : List (Text × Layered))
    (below : Layered) (has : HasMembers names below) :
    HasMembers names (override (.table source members) below) := by
  obtain ⟨_, older, rfl, has⟩ := has
  rw [override]
  refine ⟨_, _, rfl, ?_⟩
  intro name member
  obtain ⟨value, found⟩ := has name member
  rw [lookup_override_members, found]
  exact members_stay name members value

theorem override_all_has_members (names : List Text) (layers : List Layered) (below : Layered)
    (tables : ∀ layer ∈ layers, ∃ source members, layer = .table source members)
    (has : HasMembers names below) :
    HasMembers names (layers.foldl (fun below layer => override layer below) below) := by
  induction layers generalizing below with
  | nil => exact has
  | cons layer layers ih =>
      obtain ⟨source, members, rfl⟩ := tables layer List.mem_cons_self
      exact ih _ (fun layer member => tables layer (List.mem_cons_of_mem _ member))
        (override_has_members names source members below has)

end OrderOfGrowth.Settings.Layered
