import OrderOfGrowth.Proofs.Uncolored

/-!
Analyses written with colours. What is between style sequences is the text of the analysis
(`drop_styles_lines`), and each style is turned off on the line where it is turned on
(`styles_end_lines`).
-/

set_option autoImplicit false

namespace OrderOfGrowth

namespace Text

def isStyleCode (c : Char) : Bool :=
  c.isDigit || c == ';'

-- A style sequence: an escape character, a bracket, digits and semicolons, and an `m`.
def IsStyle (s : Text) : Prop :=
  ∃ codes, (∀ c ∈ codes, isStyleCode c = true) ∧ s = '\x1b' :: '[' :: (codes ++ ['m'])

def afterStyle? : Text → Option Text
  | '\x1b' :: '[' :: s =>
    match s.dropWhile isStyleCode with
    | 'm' :: rest => some rest
    | _ => none
  | _ => none

theorem after_style_shorter (s rest : Text) (found : afterStyle? s = some rest) :
    rest.length < s.length := by
  unfold afterStyle? at found
  split at found
  · rename_i t
    split at found
    · rename_i later dropped
      rw [Option.some.injEq] at found
      have sizes := congrArg List.length dropped
      have bound := List.length_dropWhile_le isStyleCode t
      rw [found, List.length_cons] at sizes
      simp only [List.length_cons]
      omega
    · cases found
  · cases found

def dropStyles : Text → Text
  | [] => []
  | c :: s =>
    match _found : afterStyle? (c :: s) with
    | some rest => dropStyles rest
    | none => c :: dropStyles s
termination_by s => s.length
decreasing_by
  · exact after_style_shorter _ _ _found
  · simp

theorem after_style (codes rest : Text) (each : ∀ c ∈ codes, isStyleCode c = true) :
    afterStyle? ('\x1b' :: '[' :: (codes ++ 'm' :: rest)) = some rest := by
  have stops : isStyleCode 'm' = false := by decide
  simp only [afterStyle?]
  rw [List.dropWhile_append_of_pos each, List.dropWhile_cons_of_neg (by simp [stops])]
  rfl

theorem drop_styles_style (style rest : Text) (isStyle : IsStyle style) :
    dropStyles (style ++ rest) = dropStyles rest := by
  obtain ⟨codes, each, rfl⟩ := isStyle
  have found := after_style codes rest each
  rw [List.cons_append, List.cons_append, List.append_assoc, List.singleton_append, dropStyles]
  split
  · rename_i later same
    rw [found, Option.some.injEq] at same
    rw [same]
  · rename_i absent
    rw [found] at absent
    cases absent

theorem drop_styles_plain (c : Char) (s : Text) (plain : c ≠ '\x1b') :
    dropStyles (c :: s) = c :: dropStyles s := by
  have absent : afterStyle? (c :: s) = none := by
    unfold afterStyle?
    split
    · rename_i same
      exact absurd (List.cons.inj same).1 plain
    · rfl
  rw [dropStyles]
  split
  · rename_i found
    rw [absent] at found
    cases found
  · rfl

theorem drop_styles_unstyled (s rest : Text) (unstyled : Unstyled s) :
    dropStyles (s ++ rest) = s ++ dropStyles rest := by
  induction s with
  | nil => rfl
  | cons c s ih =>
      rw [Unstyled, List.mem_cons, not_or] at unstyled
      rw [List.cons_append, drop_styles_plain c _ (Ne.symm unstyled.1), ih unstyled.2, List.cons_append]

theorem IsStyle.starts {style : Text} (isStyle : IsStyle style) : ∃ rest, style = '\x1b' :: rest := by
  obtain ⟨codes, -, rfl⟩ := isStyle
  exact ⟨_, rfl⟩

theorem IsStyle.single {style : Text} (isStyle : IsStyle style) : '\n' ∉ style := by
  obtain ⟨codes, each, rfl⟩ := isStyle
  have inCodes := Scan.not_inside isStyleCode codes '\n' each (by decide)
  simp [inCodes]

-- A style sequence ends at its first `m`, so no two of them start one text.
theorem style_unique (style other rest more : Text) (isStyle : IsStyle style) (isOther : IsStyle other)
    (same : style ++ rest = other ++ more) : style = other ∧ rest = more := by
  obtain ⟨codes, each, rfl⟩ := isStyle
  obtain ⟨others, eachOther, rfl⟩ := isOther
  have behind : codes ++ 'm' :: rest = others ++ 'm' :: more := by simpa using same
  have stops : ∀ s : Text, ∀ c ∈ ('m' :: s).head?, isStyleCode c = false := by
    intro s c first
    obtain rfl : 'm' = c := by simpa using first
    decide
  obtain rfl := Scan.longest_run_unique isStyleCode codes others _ _ each (stops rest) eachOther (stops more) behind
  exact ⟨rfl, (List.cons.inj (List.append_cancel_left behind)).2⟩

-- An escape character behind a text that has none.
theorem style_behind (front s before style after : Text) (unstyled : Unstyled front) (isStyle : IsStyle style)
    (same : front ++ s = before ++ (style ++ after)) :
    ∃ middle, before = front ++ middle ∧ s = middle ++ (style ++ after) := by
  obtain ⟨rest, rfl⟩ := isStyle.starts
  exact cut_behind '\x1b' front s before (rest ++ after) unstyled same

end Text

open Text (Unstyled IsStyle dropStyles)

-- Every style sequence but the one that turns styles off has that one behind it on the same line, with
-- no other style in between.
def StylesEnd (s : Text) : Prop :=
  ∀ before style after, s = before ++ (style ++ after) → IsStyle style → style ≠ Ink.offText →
    ∃ between rest, after = between ++ (Ink.offText ++ rest) ∧ Unstyled between ∧ '\n' ∉ between

theorem Ink.on_is_style (ink : Ink) : IsStyle ink.onText := by
  cases ink
  · exact ⟨"1;32".toList, by simp [Text.isStyleCode], rfl⟩
  · exact ⟨"1".toList, by simp [Text.isStyleCode], rfl⟩

theorem Ink.off_is_style : IsStyle Ink.offText :=
  ⟨"0".toList, by simp [Text.isStyleCode], rfl⟩

theorem styles_end_unstyled (s : Text) (unstyled : Unstyled s) : StylesEnd s := by
  intro before style after split isStyle
  obtain ⟨rest, rfl⟩ := isStyle.starts
  exact absurd (split ▸ List.mem_append_right _ List.mem_cons_self) unstyled

theorem styles_end_painted (front text : Text) (ink : Ink) (unstyled : Unstyled front)
    (plain : Unstyled text) (single : '\n' ∉ text) :
    StylesEnd (front ++ (ink.onText ++ (text ++ Ink.offText))) := by
  intro before style after split isStyle opening
  obtain ⟨middle, -, behind⟩ := Text.style_behind front _ before style after unstyled isStyle split
  obtain ⟨on, starts, others⟩ : ∃ on, ink.onText = '\x1b' :: on ∧ Unstyled on := by
    cases ink <;> exact ⟨_, rfl, by decide⟩
  cases middle with
  | nil =>
      obtain ⟨-, rfl⟩ := Text.style_unique _ _ _ _ ink.on_is_style isStyle behind
      exact ⟨text, [], by simp, plain, single⟩
  | cons c middle =>
      rw [starts, List.cons_append, ← List.append_assoc] at behind
      obtain ⟨-, later⟩ := List.cons.inj behind
      obtain ⟨last, -, ends⟩ := Text.style_behind _ _ middle style after (others.append plain) isStyle later
      cases last with
      | nil =>
          have whole : Ink.offText ++ [] = style ++ after := by simpa using ends
          exact absurd (Text.style_unique _ _ _ _ Ink.off_is_style isStyle whole).1.symm opening
      | cons d last =>
          obtain ⟨rest, rfl⟩ := isStyle.starts
          have tail : Ink.offText.tail = last ++ ('\x1b' :: rest ++ after) := (List.cons.inj ends).2
          have inside : '\x1b' ∈ Ink.offText.tail := by simp [tail]
          exact absurd inside (by decide)

theorem styles_end_append (s t : Text) (first : StylesEnd s) (second : StylesEnd t) :
    StylesEnd (s ++ '\n' :: t) := by
  intro before style after split isStyle opening
  have single := isStyle.single
  rcases List.append_eq_append_iff.mp split with ⟨middle, -, behind⟩ | ⟨middle, rfl, behind⟩
  · cases middle with
    | nil =>
        obtain ⟨rest, rfl⟩ := isStyle.starts
        exact absurd (List.cons.inj behind).1 (by decide)
    | cons c middle => exact second middle style after (List.cons.inj behind).2 isStyle opening
  · rcases List.append_eq_append_iff.mp behind with ⟨within, rfl, rfl⟩ | ⟨beyond, rfl, feedEq⟩
    · obtain ⟨between, rest, rfl, plain, sameLine⟩ := first before style within rfl isStyle opening
      exact ⟨between, rest ++ '\n' :: t, by simp, plain, sameLine⟩
    · cases beyond with
      | nil =>
          obtain ⟨between, rest, none, -⟩ := first before middle [] (by simp) (by simpa using isStyle)
            (by simpa using opening)
          simp [Ink.offText] at none
      | cons c beyond =>
          obtain ⟨rfl, -⟩ := List.cons.inj feedEq
          exact absurd (List.mem_append_right _ List.mem_cons_self) single

namespace Analysis

def lineFront (line : Line) : Text :=
  if line.opensSection then ['\n'] else []

theorem line_front_unstyled (line : Line) : Unstyled (lineFront line) := by
  rw [lineFront]
  split <;> decide

-- A line as it is written: the line by itself, or painted with some ink if there are colours.
theorem write_line_cases (colored : Bool) (line : Line) :
    writeLine colored line = lineFront line ++ (line.text ++ ['\n']) ∨
      ∃ ink : Ink, writeLine colored line =
        lineFront line ++ (ink.onText ++ (line.text ++ Ink.offText)) ++ ['\n'] := by
  cases colored with
  | false => exact .inl (List.append_assoc _ _ _)
  | true =>
      cases inked : Ink.ofLine? line with
      | none => exact .inl (by simp [writeLine, lineFront, Ink.paint, inked])
      | some ink => exact .inr ⟨ink, by simp [writeLine, lineFront, Ink.paint, inked]⟩

theorem drop_styles_line (colored : Bool) (line : Line) (legible : line.Legible) (rest : Text) :
    dropStyles (writeLine colored line ++ rest) = writeLine false line ++ dropStyles rest := by
  have front := line_front_unstyled line
  have text := legible.clear.unstyled
  have ending : Unstyled ['\n'] := by decide
  have plain : writeLine false line = lineFront line ++ (line.text ++ ['\n']) := List.append_assoc _ _ _
  rcases write_line_cases colored line with written | ⟨ink, written⟩
  · rw [written, plain, Text.drop_styles_unstyled _ _ (front.append (text.append ending))]
  · simp only [written, plain, List.append_assoc]
    rw [Text.drop_styles_unstyled _ _ front, Text.drop_styles_style _ _ ink.on_is_style,
      Text.drop_styles_unstyled _ _ text, Text.drop_styles_style _ _ Ink.off_is_style,
      Text.drop_styles_unstyled _ _ ending]

theorem drop_styles_lines (colored : Bool) (lines : List Line) (legible : ∀ line ∈ lines, line.Legible) :
    dropStyles (lines.flatMap (writeLine colored)) = lines.flatMap (writeLine false) := by
  induction lines with
  | nil => rw [List.flatMap_nil, List.flatMap_nil, dropStyles]
  | cons line lines ih =>
      rw [List.forall_mem_cons] at legible
      rw [List.flatMap_cons, List.flatMap_cons, drop_styles_line colored line legible.1, ih legible.2]

theorem styles_end_line (colored : Bool) (line : Line) (legible : line.Legible) :
    ∃ shown, writeLine colored line = shown ++ ['\n'] ∧ StylesEnd shown := by
  have front := line_front_unstyled line
  have text := legible.clear.unstyled
  rcases write_line_cases colored line with written | ⟨ink, written⟩
  · refine ⟨lineFront line ++ line.text, by simp [written], styles_end_unstyled _ (front.append text)⟩
  · exact ⟨_, written, styles_end_painted _ _ ink front text legible.single⟩

theorem styles_end_lines (colored : Bool) (lines : List Line) (legible : ∀ line ∈ lines, line.Legible) :
    StylesEnd (lines.flatMap (writeLine colored)) := by
  induction lines with
  | nil => exact styles_end_unstyled [] (by decide)
  | cons line lines ih =>
      rw [List.forall_mem_cons] at legible
      obtain ⟨shown, written, ends⟩ := styles_end_line colored line legible.1
      rw [List.flatMap_cons, written, List.append_assoc, List.singleton_append]
      exact styles_end_append shown _ ends (ih legible.2)

-- Line ends are written behind the lines here, and between them in a narration.
theorem lines_written_plain (first : Line) (lines : List Line) :
    (first :: lines).flatMap (writeLine false) = Narration.toText (first :: lines) ++ ['\n'] := by
  have plain : ∀ line, writeLine false line = line.shown ++ ['\n'] := by
    intro line
    rw [writeLine, Line.shown]
    split <;> rfl
  induction lines generalizing first with
  | nil => rw [List.flatMap_cons, plain]; simp [Narration.toText, Text.joinWith]
  | cons second lines ih =>
      rw [List.flatMap_cons, ih, plain]
      simp [Narration.toText, Text.joinWith]

theorem plain_text (analysis : Analysis) : analysis.write .text false = analysis.toText ++ ['\n'] := by
  cases analysis with
  | blank => rfl
  | narrated signals =>
      have some : ∃ first lines, Narration.ofSignals signals = first :: lines := ⟨_, _, rfl⟩
      obtain ⟨first, lines, split⟩ := some
      simp only [write, writeText, lines?, toText, split]
      exact lines_written_plain first lines

theorem styles_of_source (colored : Bool) (source : Text) :
    dropStyles ((ofSource source).write .text colored) = (ofSource source).write .text false ∧
      StylesEnd ((ofSource source).write .text colored) := by
  have message : Unstyled (blank.write .text false) := by decide
  rw [ofSource]
  split
  · refine ⟨?_, styles_end_unstyled _ message⟩
    have dropped := Text.drop_styles_unstyled _ [] message
    rwa [dropStyles, List.append_nil] at dropped
  · have legible := Narration.lines_legible _ (Signals.consistent_source source)
    exact ⟨drop_styles_lines colored _ legible, styles_end_lines colored _ legible⟩

/-- Written as text without colours an analysis is its text and a line end. With colours asked for and
allowed or not, the same is left when the style sequences are deleted, and each style ends on its line. -/
theorem text_under_styles (source : Text) :
    (ofSource source).write .text false = (ofSource source).toText ++ ['\n'] ∧
      ∀ asked allowed : Bool,
        dropStyles ((ofSource source).write .text (asked && allowed)) = (ofSource source).toText ++ ['\n'] ∧
          StylesEnd ((ofSource source).write .text (asked && allowed)) := by
  refine ⟨plain_text _, fun asked allowed => ?_⟩
  obtain ⟨dropped, ends⟩ := styles_of_source (asked && allowed) source
  exact ⟨dropped.trans (plain_text _), ends⟩

end Analysis

end OrderOfGrowth
