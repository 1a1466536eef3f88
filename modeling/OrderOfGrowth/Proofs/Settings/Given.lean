import OrderOfGrowth.Proofs.Settings.Keys
import OrderOfGrowth.Settings.Loading

/-!
What layers give for a setting. A document gives what it says of it (`document_gives`), and of two layers
the newer one counts where it gives something (`override_gives`), whatever both say of the other settings.
In the end only what is given for each setting is looked at (`read_given_iff`).
-/

set_option autoImplicit false

namespace OrderOfGrowth.Settings

def Value.isScalar : Value → Bool
  | .list _ => false
  | .table _ => false
  | _ => true

-- The value that the members of a table have for a name. Of several the last counts.
def last? (name : Text) (members : List (Text × Value)) : Option Value :=
  members.reverse.lookup name

-- What a document says of a setting.
def given? (key : Key) (members : List (Text × Value)) : Option Value :=
  match last? key.part members with
  | some (.table inner) => last? key.name inner
  | _ => none

-- A document whose sections are tables and whose settings are scalars, for one setting.
structure PlainFor (key : Key) (members : List (Text × Value)) : Prop where
  table : ∀ value, last? key.part members = some value → ∃ inner, value = .table inner
  scalar : ∀ value, given? key members = some value → value.isScalar = true

namespace Layered

theorem of_value_scalar (source : Source) (value : Value) (scalar : value.isScalar = true) :
    ofValue source value = .leaf source value := by
  cases value with
  | table members => cases scalar
  | _ => rfl

theorem last_cons (name sought : Text) (value : Value) (members : List (Text × Value)) :
    last? sought ((name, value) :: members) =
      (last? sought members).or (if name = sought then some value else none) := by
  rw [last?, List.reverse_cons, List.lookup_append, last?]
  by_cases here : name = sought
  · subst here
    simp
  · rw [lookup_other name sought value [] here, if_neg here]
    rfl

theorem last_none (name : Text) (members : List (Text × Value)) :
    last? name members = none ↔ members.lookup name = none := by
  simp only [last?, List.lookup_eq_none_iff, List.mem_reverse]

theorem of_members_names (source : Source) (members : List (Text × Value)) :
    ∀ name ∈ (ofMembers source members).map Prod.fst, name ∈ members.map Prod.fst := by
  induction members with
  | nil => exact fun name member => member
  | cons member members ih =>
      intro name
      rw [ofMembers]
      split
      · exact fun kept => List.mem_cons_of_mem _ (ih name kept)
      · rw [List.map_cons, List.map_cons, List.mem_cons, List.mem_cons]
        exact Or.imp_right (ih name)

theorem of_members_distinct (source : Source) (members : List (Text × Value)) :
    Distinct (ofMembers source members) := by
  induction members with
  | nil => exact List.nodup_nil
  | cons member members ih =>
      obtain ⟨name, value⟩ := member
      rw [ofMembers]
      split
      · exact ih
      · rename_i last
        refine List.nodup_cons.mpr ⟨fun again => ?_, ih⟩
        obtain ⟨other, member, rfl⟩ := List.mem_map.mp (of_members_names source members name again)
        rw [Bool.not_eq_true, Option.isSome_eq_false_iff, Option.isNone_iff_eq_none, List.lookup_eq_none_iff] at last
        simpa using last other member

-- The last of the members of a name is the one that a layer has.
theorem lookup_of_members (source : Source) (sought : Text) (members : List (Text × Value)) :
    (ofMembers source members).lookup sought = (last? sought members).map (ofValue source) := by
  induction members with
  | nil => rfl
  | cons member members ih =>
      obtain ⟨name, value⟩ := member
      rw [last_cons, ofMembers]
      cases again : members.lookup name with
      | some newer =>
          have given : last? name members ≠ none := by
            rw [Ne, last_none, again]
            simp
          rw [Option.isSome_some, if_pos rfl, ih]
          by_cases here : name = sought
          · subst here
            obtain ⟨last, same⟩ := Option.ne_none_iff_exists'.mp given
            rw [same, Option.some_or]
          · rw [if_neg here, Option.or_none]
      | none =>
          rw [Option.isSome_none, if_neg Bool.false_ne_true]
          by_cases here : name = sought
          · subst here
            rw [(last_none name members).mpr again, if_pos rfl, List.lookup_cons_self, Option.none_or, Option.map_some]
          · rw [if_neg here, Option.or_none, lookup_other _ _ _ _ here, ih]

theorem lookup_override_of_members (source : Source) (sought : Text) (members : List (Text × Value))
    (older : List (Text × Layered)) :
    (overrideMembers (ofMembers source members) older).lookup sought =
      match last? sought members with
      | some value => some (onto (ofValue source value) (older.lookup sought))
      | none => older.lookup sought := by
  rw [lookup_override_members, fold_of_distinct _ _ _ (of_members_distinct source members), lookup_of_members]
  cases last? sought members <;> rfl

-- What a section gives for a name: nothing, or a leaf in a table.
def SectionGives (name : Text) (given : Option Value) : Option Layered → Prop
  | none => given = none
  | some (.table _ inner) => Distinct inner ∧ ∃ source, inner.lookup name = given.map (Layered.leaf source)
  | some (.leaf _ _) => False

-- What a layer gives for a setting.
def Gives (key : Key) (given : Option Value) (layer : Layered) : Prop :=
  ∃ source members, layer = .table source members ∧ Distinct members ∧
    SectionGives key.name given (members.lookup key.part)

theorem section_gives_merged (name : Text) (one other : Option Value) (source : Source)
    (newer older : List (Text × Layered)) (newerGives : SectionGives name one (some (.table source newer)))
    (olderGives : SectionGives name other (some (.table source older))) :
    SectionGives name (one.or other) (some (.table source (overrideMembers newer older))) := by
  obtain ⟨distinct, newerSource, newerFound⟩ := newerGives
  obtain ⟨olderDistinct, olderSource, olderFound⟩ := olderGives
  refine ⟨override_members_distinct newer older olderDistinct, ?_⟩
  rw [lookup_override_members, fold_of_distinct name newer _ distinct, newerFound, olderFound]
  cases one with
  | none => exact ⟨olderSource, rfl⟩
  | some value =>
      refine ⟨newerSource, ?_⟩
      rw [Option.map_some]
      dsimp only
      rw [onto_leaf, Option.some_or, Option.map_some]

-- A section over what is below gives what it gives itself, and else what is given below.
theorem section_gives_onto (name : Text) (one other : Option Value) (newer : Layered) (older : Option Layered)
    (newerGives : SectionGives name one (some newer)) (olderGives : SectionGives name other older) :
    SectionGives name (one.or other) (some (onto newer older)) := by
  cases newer with
  | leaf => exact newerGives.elim
  | table source newer =>
      cases older with
      | none =>
          rw [SectionGives] at olderGives
          rw [olderGives, Option.or_none]
          exact newerGives
      | some layer =>
          cases layer with
          | leaf => exact olderGives.elim
          | table _ older =>
              rw [onto, override]
              exact section_gives_merged name one other source newer older newerGives olderGives

theorem override_gives (key : Key) (one other : Option Value) (layer below : Layered) (newer : Gives key one layer)
    (older : Gives key other below) : Gives key (one.or other) (override layer below) := by
  obtain ⟨source, members, rfl, distinct, newerGives⟩ := newer
  obtain ⟨_, below, rfl, belowDistinct, olderGives⟩ := older
  rw [override]
  refine ⟨source, _, rfl, override_members_distinct members below belowDistinct, ?_⟩
  rw [lookup_override_members, fold_of_distinct key.part members _ distinct]
  cases found : members.lookup key.part with
  | none =>
      rw [found, SectionGives] at newerGives
      rw [newerGives, Option.none_or]
      exact olderGives
  | some part =>
      rw [found] at newerGives
      exact section_gives_onto key.name one other part _ newerGives olderGives

theorem empty_gives (key : Key) (source : Source) : Gives key none (.table source []) :=
  ⟨source, [], rfl, List.nodup_nil, rfl⟩

theorem document_gives (key : Key) (source : Source) (members : List (Text × Value)) (plain : PlainFor key members) :
    Gives key (given? key members) (ofValue source (.table members)) := by
  refine ⟨source, ofMembers source members, rfl, of_members_distinct source members, ?_⟩
  rw [lookup_of_members]
  cases part : last? key.part members with
  | none =>
      rw [given?, part]
      rfl
  | some value =>
      obtain ⟨inner, rfl⟩ := plain.table value part
      have given : given? key members = last? key.name inner := by rw [given?, part]
      refine ⟨of_members_distinct source inner, source, ?_⟩
      rw [lookup_of_members, given]
      cases setting : last? key.name inner with
      | none => rfl
      | some scalar =>
          have leaf := of_value_scalar source scalar (plain.scalar scalar (given.trans setting))
          rw [Option.map_some, Option.map_some, leaf]

-- Layers of files, the oldest first.
theorem files_give (key : Key) (files : List (Text × List (Text × Value)))
    (plain : ∀ file ∈ files, PlainFor key file.2) (value : Value) (below : Layered)
    (gives : Gives key (some value) below) :
    Gives key (some (files.foldl (fun value file => (given? key file.2).getD value) value))
      ((files.map fun file => ofValue (.file file.1) (.table file.2)).foldl
        (fun below layer => override layer below) below) := by
  induction files generalizing value below with
  | nil => exact gives
  | cons file files ih =>
      have newer := document_gives key (.file file.1) file.2 (plain file List.mem_cons_self)
      have first := override_gives key _ _ _ below newer gives
      rw [Option.or_some] at first
      exact ih (fun file member => plain file (List.mem_cons_of_mem _ member)) _ _ first

theorem default_gives (key : Key) : Gives key (some (key.valueIn {})) (merge [defaultLayer]) := by
  refine ⟨_, _, rfl, override_members_distinct _ _ List.nodup_nil, ?_⟩
  cases key
  all_goals exact ⟨of_members_distinct _ _, _, rfl⟩

end Layered

-- Only the value that each setting has in the end is looked at.
theorem read_given_iff (merged : Layered) (winning : Key → Value)
    (gives : ∀ key, Layered.Gives key (some (winning key)) merged) (settings : Settings) :
    read merged = .ok settings ↔ ∀ key : Key, key.accepted? (winning key) = some (key.valueIn settings) := by
  obtain ⟨source, members, rfl, -⟩ := gives .title
  rw [read_iff]
  refine forall_congr' fun key => ?_
  obtain ⟨_, _, ⟨rfl, rfl⟩, -, part⟩ := gives key
  cases found : members.lookup key.part with
  | none => rw [found] at part; cases part
  | some layer =>
      cases layer with
      | leaf => rw [found] at part; exact part.elim
      | table source inner =>
          rw [found] at part
          obtain ⟨-, source, leaf⟩ := part
          rw [Key.settled?, leaf, Option.map_some, Key.read?]

end OrderOfGrowth.Settings
