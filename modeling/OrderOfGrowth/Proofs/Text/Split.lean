import OrderOfGrowth.Text.Basic

/-!
Texts taken apart at a separator. The parts in front of a separator and behind it are those of the two texts
beside it (`split_on_append`), and joined they give the text back.
-/

set_option autoImplicit false

namespace OrderOfGrowth.Text

theorem after_append (front s : Text) : after? front (front ++ s) = some s := by
  induction front with
  | nil => rfl
  | cons c front ih => rw [List.cons_append, after?, if_pos rfl, ih]

theorem after_some (front s rest : Text) (found : after? front s = some rest) : s = front ++ rest := by
  induction front generalizing s with
  | nil => exact Option.some.inj found
  | cons a front ih =>
      cases s with
      | nil => cases found
      | cons c s =>
          rw [after?] at found
          split at found
          · rename_i same
            rw [same, List.cons_append, ih s found]
          · cases found

theorem split_on_ne_nil (sep : Char) (s : Text) : splitOn sep s ≠ [] := by
  cases s with
  | nil => exact List.cons_ne_nil _ _
  | cons c s =>
      rw [splitOn]
      split
      · exact List.cons_ne_nil _ _
      · split <;> exact List.cons_ne_nil _ _

theorem split_on_append (sep : Char) (s t : Text) : splitOn sep (s ++ sep :: t) = splitOn sep s ++ splitOn sep t := by
  induction s with
  | nil => simp [splitOn]
  | cons c s ih =>
      rw [List.cons_append, splitOn, splitOn]
      by_cases here : c = sep
      · rw [if_pos here, if_pos here, ih, List.cons_append]
      · rw [if_neg here, if_neg here, ih]
        cases parts : splitOn sep s with
        | nil => exact absurd parts (split_on_ne_nil sep s)
        | cons part parts => rfl

theorem split_on_front (sep : Char) (front s first : Text) (parts : List Text) (absent : sep ∉ front)
    (split : splitOn sep s = first :: parts) : splitOn sep (front ++ s) = (front ++ first) :: parts := by
  induction front with
  | nil => exact split
  | cons c front ih =>
      rw [List.mem_cons, not_or] at absent
      rw [List.cons_append, splitOn, if_neg (Ne.symm absent.1), ih absent.2, List.cons_append]

theorem split_on_last (sep : Char) (part : Text) (single : sep ∉ part) : splitOn sep part = [part] := by
  simpa using split_on_front sep part [] [] [] single rfl

theorem split_on_part (sep : Char) (part rest : Text) (single : sep ∉ part) :
    splitOn sep (part ++ sep :: rest) = part :: splitOn sep rest := by
  rw [split_on_append, split_on_last sep part single, List.singleton_append]

theorem join_split (sep : Char) (s : Text) : joinWith [sep] (splitOn sep s) = s := by
  induction s with
  | nil => rfl
  | cons c s ih =>
      rw [splitOn]
      cases parts : splitOn sep s with
      | nil => exact absurd parts (split_on_ne_nil sep s)
      | cons part more =>
          rw [parts] at ih
          by_cases here : c = sep
          · rw [if_pos here, joinWith, ih, here]
            rfl
          · rw [if_neg here]
            cases more <;> simp_all [joinWith]

-- Lines that all have their end, in front of something else.
theorem split_ended (sep : Char) (lines : List Text) (rest : Text) (single : ∀ line ∈ lines, sep ∉ line) :
    splitOn sep (lines.flatMap (· ++ [sep]) ++ rest) = lines ++ splitOn sep rest := by
  induction lines with
  | nil => rfl
  | cons line lines ih =>
      rw [List.forall_mem_cons] at single
      rw [List.flatMap_cons, List.append_assoc, List.append_assoc, List.singleton_append,
        split_on_part sep line _ single.1, ih single.2, List.cons_append]

end OrderOfGrowth.Text
