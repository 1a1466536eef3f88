import OrderOfGrowth.Proofs.Toml.Quoted
import OrderOfGrowth.Toml.Reader

/-!
Settings, written as a document and read back. Each line that is written is one step of the reader,
whatever comes behind it, and the tables that the lines make are those of the settings
(`parse_write`).
-/

set_option autoImplicit false

namespace OrderOfGrowth.Toml

open Settings (Value)

-- A name that needs no quotes.
structure IsBareName (name : Text) : Prop where
  nonempty : name ≠ []
  bare : name.all isBareChar = true

instance (name : Text) : Decidable (IsBareName name) :=
  decidable_of_iff (name ≠ [] ∧ name.all isBareChar = true) ⟨fun ⟨a, b⟩ => ⟨a, b⟩, fun ⟨a, b⟩ => ⟨a, b⟩⟩

theorem bare_char_differs (c : Char) (bare : isBareChar c = true) :
    c ∉ [' ', '\t', '[', '#', '\n', '\r'] := by
  have marks : [' ', '\t', '[', '#', '\n', '\r'].all (!isBareChar ·) = true := by decide
  intro member
  have other := List.all_eq_true.mp marks c member
  rw [bare] at other
  cases other

theorem skip_gap_none (c : Char) (s : Text) (noGap : isGap c = false) : skipGap (c :: s) = c :: s := by
  simp [skipGap, noGap]

theorem bare_no_gap (c : Char) (bare : isBareChar c = true) : isGap c = false := by
  have differs := bare_char_differs c bare
  simp only [List.mem_cons, not_or] at differs
  simp [isGap, differs]

theorem bare_name_cons (name : Text) (bare : IsBareName name) :
    ∃ c tail, name = c :: tail ∧ isBareChar c = true := by
  cases name with
  | nil => exact absurd rfl bare.nonempty
  | cons c tail => exact ⟨c, tail, rfl, List.all_eq_true.mp bare.bare c List.mem_cons_self⟩

-- A name ends where a gap or a sign begins; the gap is passed over.
theorem key_bare (name gap : Text) (next : Char) (rest : Text) (bare : IsBareName name)
    (gaps : gap.all isGap = true) (sign : isGap next = false ∧ isBareChar next = false ∧ next ≠ '.') :
    key? (name ++ (gap ++ next :: rest)) = some ([name], next :: rest) := by
  obtain ⟨noGap, notBare, noDot⟩ := sign
  have bareChars := List.all_eq_true.mp bare.bare
  have gapChars := List.all_eq_true.mp gaps
  have begins : skipGap (name ++ (gap ++ next :: rest)) = name ++ (gap ++ next :: rest) := by
    obtain ⟨c, tail, rfl, bareChar⟩ := bare_name_cons name bare
    exact skip_gap_none c _ (bare_no_gap c bareChar)
  have found : (name ++ (gap ++ next :: rest)).takeWhile isBareChar = name := by
    cases gap with
    | nil => exact take_while_stops isBareChar name next rest bareChars notBare
    | cons c gap =>
        have other : isBareChar c = false := by
          by_cases bareChar : isBareChar c = true
          · have noGap := bare_no_gap c bareChar
            rw [gapChars c List.mem_cons_self] at noGap
            cases noGap
          · simpa using bareChar
        exact take_while_stops isBareChar name c _ bareChars other
  have named : name? (name ++ (gap ++ next :: rest)) = some (name, gap ++ next :: rest) := by
    obtain ⟨c, tail, rfl, -⟩ := bare_name_cons name bare
    rw [name?, found]
    simp only [List.drop_left]
  have behind : skipGap (gap ++ next :: rest) = next :: rest := by
    rw [skipGap, List.dropWhile_append_of_pos gapChars, List.dropWhile_cons_of_neg (by simp [noGap])]
  have last : names? (78 + 1) (name ++ (gap ++ next :: rest)) = some ([name], next :: rest) := by
    rw [names?, begins, named]
    simp only [Option.bind_eq_bind, Option.bind_some, behind]
    split
    · rename_i same
      exact absurd (List.cons.inj same).1 noDot
    · rfl
  exact last

-- What stands for a value: it begins with a sign that is no gap, and it reads as the value up to the
-- end of its line.
structure Writes (written : Text) (value : Value) : Prop where
  starts : ∀ rest, skipGap (written ++ '\n' :: rest) = written ++ '\n' :: rest
  reads : ∀ fuel depth rest,
    value? (fuel + 1) depth (written ++ '\n' :: rest) = some (value, '\n' :: rest)

theorem write_string_starts (s : Text) : ∃ tail, writeString s = '"' :: tail ∨ writeString s = '\'' :: tail := by
  cases form : formOf s with
  | basic => exact ⟨_, .inl (by simp only [writeString, form]; rfl)⟩
  | basicLines => exact ⟨_, .inl (by simp only [writeString, form]; rfl)⟩
  | literal => exact ⟨_, .inr (by simp only [writeString, form]; rfl)⟩
  | literalLines => exact ⟨_, .inr (by simp only [writeString, form]; rfl)⟩

theorem write_string_writes (s : Text) : Writes (writeString s) (.text s) := by
  obtain ⟨tail, starts⟩ := write_string_starts s
  refine ⟨?_, ?_⟩
  · intro rest
    rcases starts with shape | shape <;>
      exact shape ▸ skip_gap_none _ _ (by decide)
  · intro fuel depth rest
    have read := string_write s rest
    rcases starts with shape | shape <;>
      · rw [shape] at read ⊢
        rw [List.cons_append] at read ⊢
        simp only [value?, read, Option.map_some]

theorem write_switch_writes (b : Bool) : Writes (writeSwitch b) (.flag b) := by
  cases b with
  | true => exact ⟨fun _ => rfl, fun _ _ _ => rfl⟩
  | false => exact ⟨fun _ => rfl, fun _ _ _ => rfl⟩

section Lines

variable (fuel : Nat) (document : Document) (rest : Text)

theorem after_line_feed : afterLine? ('\n' :: rest) = some rest := by
  simp [afterLine?, skipGap, isGap, afterLineEnd?]

theorem read_blank : readLines? (fuel + 1) document ('\n' :: rest) = readLines? fuel document rest := by
  rw [readLines?, skip_gap_none '\n' _ (by decide)]
  simp [after_line_feed]

theorem read_header (name : Text) (bare : IsBareName name) :
    readLines? (fuel + 1) document ('[' :: (name ++ ']' :: '\n' :: rest)) =
      (document.openTable? [name]).bind fun document => readLines? fuel document rest := by
  have key : key? (name ++ ']' :: '\n' :: rest) = some ([name], ']' :: '\n' :: rest) :=
    key_bare name [] ']' ('\n' :: rest) bare rfl (by decide)
  have closed : Text.after? [']'] (']' :: '\n' :: rest) = some ('\n' :: rest) := by
    cases rest <;> rfl
  obtain ⟨c, tail, rfl, bareChar⟩ := bare_name_cons name bare
  have other : c ≠ '[' := fun same => bare_char_differs c bareChar (by simp [same])
  rw [List.cons_append] at key ⊢
  rw [readLines?, skip_gap_none '[' _ (by decide)]
  simp [other, key, closed, after_line_feed]

theorem read_setting (name written : Text) (value : Value) (bare : IsBareName name)
    (writes : Writes written value) :
    readLines? (fuel + 1) document (writeLine name written ++ rest) =
      (document.assign? [name] value).bind fun document => readLines? fuel document rest := by
  have key : key? (name ++ ' ' :: '=' :: ' ' :: (written ++ '\n' :: rest)) =
      some ([name], '=' :: ' ' :: (written ++ '\n' :: rest)) :=
    key_bare name [' '] '=' (' ' :: (written ++ '\n' :: rest)) bare (by decide) (by decide)
  have equals : Text.after? ['='] ('=' :: ' ' :: (written ++ '\n' :: rest)) =
      some (' ' :: (written ++ '\n' :: rest)) := rfl
  have gap : skipGap (' ' :: (written ++ '\n' :: rest)) = written ++ '\n' :: rest := writes.starts rest
  have shape : writeLine name written ++ rest = name ++ ' ' :: '=' :: ' ' :: (written ++ '\n' :: rest) := by
    simp [writeLine]
  obtain ⟨c, tail, rfl, bareChar⟩ := bare_name_cons name bare
  have other := bare_char_differs c bareChar
  simp only [List.mem_cons, not_or] at other
  rw [shape]
  rw [List.cons_append] at key ⊢
  rw [readLines?, skip_gap_none c _ (bare_no_gap c bareChar)]
  simp [other, key, equals, gap, writes.reads, after_line_feed]

end Lines

theorem open_table_new (document : Document) (name : Text) (fresh : document.members.lookup name = none) :
    document.openTable? [name] = some ⟨document.members.add name (.table .header []), [name]⟩ := by
  simp [Document.openTable?, Members.descend?, Members.openTable?, fresh]

theorem replace_last (before : Members) (name : Text) (old new : Entry)
    (fresh : before.lookup name = none) :
    (before.add name old).replace name new = before.add name new := by
  have other : ∀ member ∈ before, member.1 ≠ name := by
    intro member inside same
    have absent := List.lookup_eq_none_iff.mp fresh member inside
    simp [same] at absent
  have kept : before.map (fun member => if member.1 = name then (name, new) else member) = before := by
    rw [List.map_congr_left fun member inside => if_neg (other member inside), List.map_id']
  simp only [Members.replace, Members.add, List.map_append, kept, List.map_cons, List.map_nil, if_true]

theorem lookup_last (before : Members) (name : Text) (entry : Entry) (fresh : before.lookup name = none) :
    (before.add name entry).lookup name = some entry := by
  simp [Members.add, List.lookup_append, fresh]

-- The table that was opened last is the one that settings are added to.
theorem assign_last (before inner : Members) (table name : Text) (value : Value)
    (other : before.lookup table = none) (fresh : inner.lookup name = none) :
    Document.assign? ⟨before.add table (.table .header inner), [table]⟩ [name] value =
      some ⟨before.add table (.table .header (inner.add name (.value value))), [table]⟩ := by
  have added : assign? [name] value inner = some (inner.add name (.value value)) := by
    simp [assign?, Members.addDotted?, fresh]
  simp only [Document.assign?, Members.descend?, lookup_last _ _ _ other, added, Option.map_some,
    replace_last _ _ _ _ other]

def tables (settings : Settings) : List (Text × Value) :=
  [("output".toList, .table
      [("format".toList, .text settings.output.format.name), ("color".toList, .flag settings.output.color)]),
    ("highlight".toList, .table
      [("language".toList, .text settings.highlight.language),
        ("enabled".toList, .flag settings.highlight.enabled)]),
    ("report".toList, .table [("title".toList, .text settings.report.title)])]

theorem write_lines (settings : Settings) :
    write settings =
      '[' :: ("output".toList ++ ']' :: '\n' ::
        (writeLine "format".toList (writeString settings.output.format.name) ++
          (writeLine "color".toList (writeSwitch settings.output.color) ++
      '\n' :: '[' :: ("highlight".toList ++ ']' :: '\n' ::
        (writeLine "language".toList (writeString settings.highlight.language) ++
          (writeLine "enabled".toList (writeSwitch settings.highlight.enabled) ++
      '\n' :: '[' :: ("report".toList ++ ']' :: '\n' ::
        (writeLine "title".toList (writeString settings.report.title) ++ [])))))))) := by
  have output : "[output]\n".toList = '[' :: ("output".toList ++ [']', '\n']) := rfl
  have highlight : "\n[highlight]\n".toList = '\n' :: '[' :: ("highlight".toList ++ [']', '\n']) := rfl
  have report : "\n[report]\n".toList = '\n' :: '[' :: ("report".toList ++ [']', '\n']) := rfl
  delta write
  rw [output, highlight, report]
  simp only [List.append_assoc, List.cons_append, List.nil_append, List.append_nil]

theorem read_end (fuel : Nat) (document : Document) : readLines? (fuel + 1) document [] = some document := by
  simp [readLines?, skipGap]

-- The tables that reading the lines makes.
def written (settings : Settings) : Members :=
  [("output".toList, .table .header
      [("format".toList, .value (.text settings.output.format.name)),
        ("color".toList, .value (.flag settings.output.color))]),
    ("highlight".toList, .table .header
      [("language".toList, .value (.text settings.highlight.language)),
        ("enabled".toList, .value (.flag settings.highlight.enabled))]),
    ("report".toList, .table .header [("title".toList, .value (.text settings.report.title))])]

theorem read_lines_write (settings : Settings) (fuel : Nat) :
    readLines? (fuel + 11) ⟨[], []⟩ (write settings) = some ⟨written settings, ["report".toList]⟩ := by
  rw [write_lines,
    read_header _ _ _ _ (by decide), open_table_new _ _ rfl, Option.bind_some,
    read_setting _ _ _ _ _ _ (by decide) (write_string_writes _), assign_last _ _ _ _ _ rfl rfl, Option.bind_some,
    read_setting _ _ _ _ _ _ (by decide) (write_switch_writes _), assign_last _ _ _ _ _ rfl rfl, Option.bind_some,
    read_blank, read_header _ _ _ _ (by decide), open_table_new _ _ rfl, Option.bind_some,
    read_setting _ _ _ _ _ _ (by decide) (write_string_writes _), assign_last _ _ _ _ _ rfl rfl, Option.bind_some,
    read_setting _ _ _ _ _ _ (by decide) (write_switch_writes _), assign_last _ _ _ _ _ rfl rfl, Option.bind_some,
    read_blank, read_header _ _ _ _ (by decide), open_table_new _ _ rfl, Option.bind_some,
    read_setting _ _ _ _ _ _ (by decide) (write_string_writes _), assign_last _ _ _ _ _ rfl rfl, Option.bind_some,
    read_end]
  rfl

theorem parse_write (settings : Settings) : parse? (write settings) = some (tables settings) := by
  have long : 10 ≤ (write settings).length := by
    rw [write_lines]
    simp only [List.length_cons, List.length_append]
    omega
  obtain ⟨fuel, enough⟩ := Nat.exists_eq_add_of_le long
  have read := read_lines_write settings fuel
  have steps : fuel + 11 = (write settings).length + 1 := by omega
  rw [steps] at read
  obtain ⟨rest, shape⟩ : ∃ rest, write settings = '[' :: rest := ⟨_, write_lines settings⟩
  have unmarked : parse? ('[' :: rest) =
      (readLines? (('[' :: rest).length + 1) ⟨[], []⟩ ('[' :: rest)).map fun document =>
        membersToValues document.members := rfl
  rw [shape] at read ⊢
  rw [unmarked, read]
  rfl

end OrderOfGrowth.Toml
