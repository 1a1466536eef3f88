import OrderOfGrowth.CommandLine.Reader
import Mathlib.Data.List.Nodup

/-!
Words that stand for one option each. A reader that settles the option of every word it takes has settled all
of them behind a run of words, unless one comes twice (`words_read`). What has been settled answers alike in
any order (`value_in_any_order`, `has_in_any_order`).
-/

set_option autoImplicit false

namespace OrderOfGrowth.CommandLine

-- An argument, and the option with its value that it stands for. Flags have an empty value.
structure Word (ι : Type) where
  option : ι
  value : Text
  text : Text
  deriving DecidableEq

def Word.entry {ι : Type} (word : Word ι) : ι × Text :=
  (word.option, word.value)

section Settled

variable {ι : Type} [DecidableEq ι]

theorem taken_dashed (scope : Scope ι) (given : Given ι) (arg : Text) (result : Except Rejection (Given ι))
    (taken : scope.takeOptions? given arg = some result) : ∃ s, arg = '-' :: s ∧ arg ≠ "--".toList := by
  unfold Scope.takeOptions? at taken
  split at taken
  · cases taken
  · cases taken
  · rename_i s more
    exact ⟨'-' :: s, rfl, by simpa using more⟩
  · rename_i s _ other _
    exact ⟨s, rfl, by simpa using other⟩
  · cases taken

theorem last_letter_taken (scope : Scope ι) (given : Given ι) (c : Char) (option : ι)
    (flag : scope.lettered c = some (.flag option)) :
    scope.takeLetters given [c] = scope.take given (.flag option) none := by
  rw [Scope.takeLetters, flag]
  cases taken : scope.take given (.flag option) none with
  | ok given => simp only [taken, Scope.takeLetters]
  | error rejection => simp only [taken]

theorem settled_any_iff (settled : List (ι × Text)) (option : ι) :
    settled.any (·.1 == option) = true ↔ option ∈ settled.map Prod.fst := by
  simp

theorem put_new (scope : Scope ι) (settled : List (ι × Text)) (option : ι) (value : Text)
    (new : option ∉ settled.map Prod.fst) (accepted : scope.accepts option value = true) :
    scope.put ⟨settled, none⟩ option value = .ok ⟨settled ++ [(option, value)], none⟩ := by
  have absent : ¬ settled.any (·.1 == option) = true := fun found => new ((settled_any_iff settled option).mp found)
  rw [Scope.put, if_neg absent, accepted]
  rfl

theorem put_again (scope : Scope ι) (settled : List (ι × Text)) (option : ι) (value : Text)
    (present : option ∈ settled.map Prod.fst) :
    scope.put ⟨settled, none⟩ option value = .error .argumentConflict := by
  rw [Scope.put, if_pos ((settled_any_iff settled option).mpr present)]

theorem value_in_any_order (settled others : List (ι × Text)) (same : settled.Perm others)
    (once : (settled.map Prod.fst).Nodup) (option : ι) :
    (⟨settled, none⟩ : Given ι).value? option = (⟨others, none⟩ : Given ι).value? option := by
  change settled.lookup option = others.lookup option
  induction same with
  | nil => rfl
  | cons entry same ih =>
      obtain ⟨first, value⟩ := entry
      rw [List.map_cons, List.nodup_cons] at once
      rw [List.lookup_cons, List.lookup_cons, ih once.2]
  | swap first second rest =>
      obtain ⟨one, value⟩ := first
      obtain ⟨two, other⟩ := second
      have apart : two ≠ one := fun equal => (List.nodup_cons.mp once).1 (equal ▸ List.mem_cons_self)
      by_cases hit : option = one
      · have misses : (option == two) = false := beq_eq_false_iff_ne.mpr fun also => apart (also.symm.trans hit)
        rw [List.lookup_cons, misses, hit, List.lookup_cons_self, List.lookup_cons_self]
      · have misses : (option == one) = false := beq_eq_false_iff_ne.mpr hit
        simp only [List.lookup_cons, misses]
  | trans left right ihLeft ihRight => exact (ihLeft once).trans (ihRight ((left.map Prod.fst).nodup once))

theorem has_in_any_order (settled others : List (ι × Text)) (same : settled.Perm others) (option : ι) :
    (⟨settled, none⟩ : Given ι).has option = (⟨others, none⟩ : Given ι).has option := by
  rw [Given.has, Given.has, same.any_eq]

end Settled

section Runs

variable {ι α : Type}

-- A reader that settles what a word stands for and goes on from there.
structure TakesWords [DecidableEq ι] (scope : Scope ι) (known : Word ι → Prop)
    (read : Given ι → List Text → Except Rejection α) : Prop where
  accepts : ∀ word, known word → scope.accepts word.option word.value = true
  takes : ∀ settled word args, known word → read ⟨settled, none⟩ (word.text :: args) =
    scope.put ⟨settled, none⟩ word.option word.value >>= fun given => read given args

theorem once_more_iff (settled : List (ι × Text)) (entry : ι × Text) :
    ((settled ++ [entry]).map Prod.fst).Nodup ↔ entry.1 ∉ settled.map Prod.fst ∧ (settled.map Prod.fst).Nodup := by
  rw [List.map_append, List.map_singleton, ← List.concat_eq_append, List.nodup_concat]

-- Each word is one option that is settled. The first that comes again ends the reading.
theorem words_read [DecidableEq ι] (scope : Scope ι) (known : Word ι → Prop)
    (read : Given ι → List Text → Except Rejection α) (reader : TakesWords scope known read)
    (settled : List (ι × Text)) (words : List (Word ι)) (args : List Text) (all : ∀ word ∈ words, known word)
    (distinct : (settled.map Prod.fst).Nodup) :
    read ⟨settled, none⟩ (words.map Word.text ++ args) =
      if ((settled ++ words.map Word.entry).map Prod.fst).Nodup then
        read ⟨settled ++ words.map Word.entry, none⟩ args
      else .error .argumentConflict := by
  induction words generalizing settled with
  | nil => simp [distinct]
  | cons word words ih =>
      rw [List.forall_mem_cons] at all
      rw [List.map_cons, List.cons_append, reader.takes settled word _ all.1, List.map_cons, List.append_cons]
      by_cases present : word.option ∈ settled.map Prod.fst
      · have twice : ¬ ((settled ++ [word.entry] ++ words.map Word.entry).map Prod.fst).Nodup := by
          intro once
          rw [List.map_append] at once
          exact ((once_more_iff settled word.entry).mp once.of_append_left).1 present
        rw [put_again scope settled _ _ present, if_neg twice]
        rfl
      · rw [put_new scope settled _ _ present (reader.accepts word all.1)]
        exact ih _ all.2 ((once_more_iff settled word.entry).mpr ⟨present, distinct⟩)

theorem options_of_words (words : List (Word ι)) :
    (words.map Word.entry).map Prod.fst = words.map Word.option := by
  rw [List.map_map]
  rfl

theorem words_of_entries (known : Word ι → Prop) (entries : List (ι × Text))
    (each : ∀ entry ∈ entries, ∃ word, known word ∧ word.entry = entry) :
    ∃ words : List (Word ι), (∀ word ∈ words, known word) ∧ words.map Word.entry = entries := by
  induction entries with
  | nil => exact ⟨[], by simp, rfl⟩
  | cons entry entries ih =>
      rw [List.forall_mem_cons] at each
      obtain ⟨word, isKnown, rfl⟩ := each.1
      obtain ⟨words, all, rfl⟩ := ih each.2
      exact ⟨word :: words, List.forall_mem_cons.mpr ⟨isKnown, all⟩, rfl⟩

end Runs

end OrderOfGrowth.CommandLine
