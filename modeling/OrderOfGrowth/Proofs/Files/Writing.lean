import OrderOfGrowth.Files.Tree
import Mathlib.Data.List.Basic

/-!
A file that is written. It is read back under the path that it was written to (`read_written`), and at
every other place there is what was there before (`written_elsewhere`).
-/

set_option autoImplicit false

namespace OrderOfGrowth.Files.Tree

def finding : Tree → Finding
  | .file bytes => .file bytes
  | .directory _ => .directory

-- What there is at a place, for somebody who does not look into directories.
def finding? (tree : Tree) (place : Place) : Option Finding :=
  (tree.at? place).map finding

theorem is_directory_iff (tree : Tree) (place : Place) :
    tree.isDirectoryAt place = true ↔ tree.finding? place = some .directory := by
  rw [isDirectoryAt, finding?]
  cases tree.at? place with
  | none => simp
  | some found => cases found <;> simp [entries?, finding]

theorem there_iff (tree : Tree) (place : Place) :
    (tree.at? place).isSome = true ↔ (tree.finding? place).isSome = true := by
  rw [finding?, Option.isSome_map]

theorem finding_root (tree : Tree) : tree.finding? [] = some tree.finding := by
  rw [finding?, at?, Option.map_some]

theorem finding_in_directory (entries : List (Text × Tree)) (name : Text) (rest : Place) :
    (directory entries).finding? (name :: rest) = (entries.lookup name).bind (·.finding? rest) := by
  rw [finding?, at?]
  cases entries.lookup name <;> rfl

theorem finding_below_file (bytes : List UInt8) (place : Place) (below : place ≠ []) :
    (file bytes).finding? place = none := by
  cases place with
  | nil => exact absurd rfl below
  | cons name rest => rfl

theorem lookup_update_same (name : Text) (change : Option Tree → Tree) (entries : List (Text × Tree)) :
    (updateEntry name change entries).lookup name = some (change (entries.lookup name)) := by
  induction entries with
  | nil => simp [updateEntry]
  | cons entry entries ih =>
      obtain ⟨other, child⟩ := entry
      by_cases same : other = name
      · subst same
        simp [updateEntry]
      · have differs : (name == other) = false := beq_eq_false_iff_ne.mpr (Ne.symm same)
        rw [updateEntry, if_neg same, List.lookup_cons, differs, List.lookup_cons, differs]
        exact ih

theorem lookup_update_other (name other : Text) (change : Option Tree → Tree)
    (entries : List (Text × Tree)) (different : other ≠ name) :
    (updateEntry name change entries).lookup other = entries.lookup other := by
  induction entries with
  | nil => simp [updateEntry, different]
  | cons entry entries ih =>
      obtain ⟨first, child⟩ := entry
      by_cases same : first = name
      · subst same
        have differs : (other == first) = false := beq_eq_false_iff_ne.mpr different
        rw [updateEntry, if_pos rfl, List.lookup_cons, differs, List.lookup_cons, differs]
      · rw [updateEntry, if_neg same, List.lookup_cons, List.lookup_cons, ih]

theorem at_put (bytes : List UInt8) (place : Place) (tree : Tree) :
    (tree.put bytes place).at? place = some (.file bytes) := by
  induction place generalizing tree with
  | nil => rfl
  | cons name rest ih => simp only [put, at?, lookup_update_same, ih]

theorem directory_of_finding (tree : Tree) (there : tree.finding? [] = some .directory) :
    ∃ entries, tree = .directory entries := by
  cases tree with
  | file bytes => cases there
  | directory entries => exact ⟨entries, rfl⟩

-- A file is put into a directory that is there, in the place of a file or of nothing.
theorem finding_put (bytes : List UInt8) (parent : Place) (last : Text) (tree : Tree)
    (holder : tree.finding? parent = some .directory)
    (free : tree.finding? (parent ++ [last]) ≠ some .directory) (other : Place)
    (different : other ≠ parent ++ [last]) :
    (tree.put bytes (parent ++ [last])).finding? other = tree.finding? other := by
  induction parent generalizing tree other with
  | nil =>
      obtain ⟨entries, rfl⟩ := directory_of_finding tree holder
      cases other with
      | nil => rw [finding_root, finding_root]; rfl
      | cons name rest =>
          rw [List.nil_append, put, finding_in_directory, finding_in_directory]
          by_cases same : name = last
          · subst same
            have below : rest ≠ [] := fun none => different (by rw [none]; rfl)
            rw [entries?, Option.getD_some, lookup_update_same, Option.bind_some, put,
              finding_below_file bytes rest below]
            rw [List.nil_append, finding_in_directory] at free
            cases found : entries.lookup name with
            | none => rfl
            | some child =>
                rw [found, Option.bind_some, finding_root] at free
                cases child with
                | file held => exact (finding_below_file held rest below).symm
                | directory held => exact absurd rfl free
          · rw [entries?, Option.getD_some, lookup_update_other last name _ _ same]
  | cons first parent ih =>
      cases tree with
      | file held => cases holder
      | directory entries =>
          rw [finding_in_directory] at holder
          rw [List.cons_append, finding_in_directory] at free
          cases found : entries.lookup first with
          | none => rw [found] at holder; cases holder
          | some child =>
              rw [found, Option.bind_some] at holder free
              rw [List.cons_append, put, entries?, Option.getD_some]
              cases other with
              | nil => rfl
              | cons name rest =>
                  rw [finding_in_directory, finding_in_directory]
                  by_cases same : name = first
                  · subst same
                    have further : rest ≠ parent ++ [last] := fun equal => different (by rw [equal]; rfl)
                    rw [lookup_update_same, found, Option.getD_some, Option.bind_some, Option.bind_some]
                    exact ih child holder free rest further
                  · rw [lookup_update_other first name _ _ same]

-- Where a path leads to that can be written to: into a directory that is there, under a proper name.
structure Leads (tree : Tree) (working : Place) (path : Text) (before : List Text) (parent : Place)
    (last : Text) : Prop where
  nonempty : path ≠ []
  short : (Text.encode path).length < 4096
  parts : Text.splitOn '/' path = before ++ [last]
  followed : before.foldlM tree.follow (start working path) = .ok parent
  holder : tree.finding? parent = some .directory
  proper : Path.stays last = false ∧ last ≠ Path.up ∧ (Text.encode last).length ≤ 255
  free : tree.finding? (parent ++ [last]) ≠ some .directory

theorem last_part (parts before : List Text) (last : Text) (solid : parts.getLast? ≠ some [])
    (kept : parts.reverse.dropWhile (· == []) = last :: before) : parts = before.reverse ++ [last] := by
  have whole : parts.reverse = last :: before := by
    rw [List.getLast?_eq_head?_reverse] at solid
    cases backwards : parts.reverse with
    | nil => rw [backwards] at kept; cases kept
    | cons first others =>
        have shown : (first == []) = false := by
          rw [beq_eq_false_iff_ne]
          exact fun empty => solid (by rw [backwards, empty]; rfl)
        rwa [backwards, List.dropWhile_cons, shown] at kept
  have forwards := congrArg List.reverse whole
  rwa [List.reverse_reverse, List.reverse_cons] at forwards

theorem target_leads (tree : Tree) (working place : Place) (path : Text)
    (found : tree.target working path = .ok place) :
    ∃ before parent last, place = parent ++ [last] ∧ Leads tree working path before parent last := by
  rw [target] at found
  split at found
  · cases found
  rename_i nonempty
  split at found
  · cases found
  rename_i short
  simp only at found
  cases kept : (Text.splitOn '/' path).reverse.dropWhile (· == []) with
  | nil => rw [kept] at found; cases found
  | cons last before =>
      rw [kept] at found
      simp only at found
      cases walked : before.reverse.foldlM tree.follow (start working path) with
      | error refusal => rw [walked] at found; cases found
      | ok parent =>
          rw [walked] at found
          simp only [bind, Except.bind] at found
          split at found
          · cases found
          rename_i holder
          split at found
          · cases found
          rename_i proper
          split at found
          · cases found
          rename_i narrow
          simp only [Bool.not_eq_true', Bool.not_eq_false] at holder
          simp only [Bool.or_eq_true, not_or, Bool.not_eq_true, beq_eq_false_iff_ne] at proper
          have parts := last_part _ before last proper.2 kept
          have end_ : place = parent ++ [last] ∧ tree.finding? (parent ++ [last]) ≠ some .directory := by
            rw [finding?]
            split at found
            · cases found
            · rename_i free
              refine ⟨(Except.ok.inj found).symm, ?_⟩
              cases held : tree.at? (parent ++ [last]) with
              | none => exact fun directory => nomatch directory
              | some entry =>
                  cases entry with
                  | file bytes => exact fun directory => nomatch directory
                  | directory entries => exact absurd held (free entries)
          exact ⟨before.reverse, parent, last, end_.1, nonempty, Nat.lt_of_not_le short, parts, walked,
            (is_directory_iff tree parent).mp holder, ⟨proper.1.1, proper.1.2, Nat.le_of_not_lt narrow⟩,
            end_.2⟩

-- One part of a path is followed from a directory: it stays there, goes up, or goes down to what is there.
theorem follow_ok_iff (tree : Tree) (place next : Place) (part : Text) :
    tree.follow place part = .ok next ↔ tree.finding? place = some .directory ∧
      (Path.stays part = true ∧ next = place ∨
        Path.stays part = false ∧ part = Path.up ∧ next = place.dropLast ∨
        Path.stays part = false ∧ part ≠ Path.up ∧ (Text.encode part).length ≤ 255 ∧
          (tree.finding? (place ++ [part])).isSome = true ∧ next = place ++ [part]) := by
  rw [follow, ← is_directory_iff, ← there_iff]
  by_cases directory : tree.isDirectoryAt place = true
  · rw [directory, Bool.not_true, if_neg (by decide)]
    by_cases stays : Path.stays part = true
    · rw [if_pos stays, Except.ok.injEq]
      simp only [stays, true_and, reduceCtorEq, false_and, or_false]
      exact eq_comm
    rw [if_neg stays]
    by_cases up : part = Path.up
    · have moves : Path.stays Path.up = false := rfl
      rw [if_pos up, Except.ok.injEq, up]
      simp only [moves, true_and, false_and, false_or, ne_eq, not_true, and_false, or_false,
        Bool.false_eq_true]
      exact eq_comm
    rw [if_neg up]
    by_cases long : 255 < (Text.encode part).length
    · rw [if_pos long]
      refine iff_of_false (fun ended => nomatch ended) ?_
      rintro ⟨-, here | ⟨-, above, -⟩ | ⟨-, -, narrow, -⟩⟩
      · exact stays here.1
      · exact up above
      · exact Nat.not_lt.mpr narrow long
    rw [if_neg long]
    by_cases there : (tree.at? (place ++ [part])).isSome = true
    · rw [if_pos there, Except.ok.injEq]
      constructor
      · intro down
        exact ⟨rfl, .inr (.inr ⟨Bool.eq_false_iff.mpr stays, up, Nat.le_of_not_lt long, there, down.symm⟩)⟩
      · rintro ⟨-, here | ⟨-, above, -⟩ | ⟨-, -, -, -, down⟩⟩
        · exact absurd here.1 stays
        · exact absurd above up
        · exact down.symm
    · rw [if_neg there]
      refine iff_of_false (fun ended => nomatch ended) ?_
      rintro ⟨-, here | ⟨-, above, -⟩ | ⟨-, -, -, found, -⟩⟩
      · exact stays here.1
      · exact up above
      · exact there found
  · simp [directory]

theorem write_ok_iff (tree after : Tree) (working : Place) (path : Text) (bytes : List UInt8) :
    tree.write working path bytes = .ok after ↔
      ∃ place, tree.target working path = .ok place ∧ after = tree.put bytes place := by
  rw [write]
  cases led : tree.target working path with
  | error refusal => simp
  | ok place => simp [eq_comm]

theorem written_elsewhere (tree : Tree) (working place : Place) (path : Text) (bytes : List UInt8)
    (led : tree.target working path = .ok place) (other : Place) (different : other ≠ place) :
    (tree.put bytes place).finding? other = tree.finding? other := by
  obtain ⟨_, parent, last, rfl, leads⟩ := target_leads tree working place path led
  exact finding_put bytes parent last tree leads.holder leads.free other different

theorem finding_written (tree : Tree) (place : Place) (bytes : List UInt8) :
    (tree.put bytes place).finding? place = some (.file bytes) := by
  rw [finding?, at_put, Option.map_some, finding]

theorem written_still_there (tree : Tree) (working place : Place) (path : Text) (bytes : List UInt8)
    (led : tree.target working path = .ok place) (other : Place)
    (there : (tree.finding? other).isSome = true) :
    ((tree.put bytes place).finding? other).isSome = true := by
  by_cases hit : other = place
  · rw [hit, finding_written]
    rfl
  · rwa [written_elsewhere tree working place path bytes led other hit]

theorem written_still_directory (tree : Tree) (working place : Place) (path : Text) (bytes : List UInt8)
    (led : tree.target working path = .ok place) (other : Place)
    (directory : tree.finding? other = some .directory) :
    (tree.put bytes place).finding? other = some .directory := by
  obtain ⟨_, parent, last, same, leads⟩ := target_leads tree working place path led
  have apart : other ≠ place := fun hit => leads.free (by rw [← same, ← hit, directory])
  rw [written_elsewhere tree working place path bytes led other apart, directory]

theorem follow_written (tree : Tree) (working place : Place) (path : Text) (bytes : List UInt8)
    (led : tree.target working path = .ok place) (here next : Place) (part : Text)
    (followed : tree.follow here part = .ok next) : (tree.put bytes place).follow here part = .ok next := by
  rw [follow_ok_iff] at followed ⊢
  obtain ⟨directory, way⟩ := followed
  refine ⟨written_still_directory tree working place path bytes led here directory, ?_⟩
  rcases way with stays | up | ⟨moves, proper, short, there, down⟩
  · exact .inl stays
  · exact .inr (.inl up)
  · exact .inr (.inr ⟨moves, proper, short,
      written_still_there tree working place path bytes led _ there, down⟩)

theorem walk_written (tree : Tree) (working place : Place) (path : Text) (bytes : List UInt8)
    (led : tree.target working path = .ok place) (parts : List Text) (here next : Place)
    (walked : parts.foldlM tree.follow here = .ok next) :
    parts.foldlM (tree.put bytes place).follow here = .ok next := by
  induction parts generalizing here with
  | nil => exact walked
  | cons part parts ih =>
      rw [List.foldlM_cons] at walked ⊢
      cases followed : tree.follow here part with
      | error refusal => rw [followed] at walked; cases walked
      | ok further =>
          rw [followed] at walked
          rw [follow_written tree working place path bytes led here further part followed]
          exact ih further walked

theorem read_written (tree : Tree) (working place : Place) (path : Text) (bytes : List UInt8)
    (led : tree.target working path = .ok place) :
    (tree.put bytes place).read working path = .ok bytes := by
  obtain ⟨before, parent, last, same, leads⟩ := target_leads tree working place path led
  have reached : (tree.put bytes place).follow parent last = .ok place := by
    rw [follow_ok_iff]
    refine ⟨written_still_directory tree working place path bytes led parent leads.holder, .inr (.inr ?_)⟩
    refine ⟨leads.proper.1, leads.proper.2.1, leads.proper.2.2, ?_, same⟩
    rw [← same, finding_written]
    rfl
  have resolved : (tree.put bytes place).resolve working path = .ok place := by
    rw [resolve, if_neg leads.nonempty, if_neg (Nat.not_le.mpr leads.short), leads.parts, List.foldlM_append,
      walk_written tree working place path bytes led before _ parent leads.followed]
    rw [show (Except.ok parent >>= [last].foldlM (tree.put bytes place).follow) =
      ((tree.put bytes place).follow parent last >>= pure) from rfl, reached]
    rfl
  simp only [read, resolved, at_put]

-- A file and nothing but a file has been written: the path leads to it, and there it is read.
structure Written (before after : Tree) (working : Place) (path : Text) (bytes : List UInt8)
    (place : Place) : Prop where
  led : before.target working path = .ok place
  holds : after.finding? place = some (.file bytes)
  reads : after.read working path = .ok bytes
  elsewhere : ∀ other, other ≠ place → after.finding? other = before.finding? other

theorem put_written (tree : Tree) (working place : Place) (path : Text) (bytes : List UInt8)
    (led : tree.target working path = .ok place) :
    Written tree (tree.put bytes place) working path bytes place where
  led := led
  holds := finding_written tree place bytes
  reads := read_written tree working place path bytes led
  elsewhere := written_elsewhere tree working place path bytes led

end OrderOfGrowth.Files.Tree
