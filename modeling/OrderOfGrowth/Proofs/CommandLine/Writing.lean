import OrderOfGrowth.Footprint
import OrderOfGrowth.Proofs.CommandLine.Words

/-!
Command lines, written and read back. A writing has a word for every option, in any order within its scope, a
word for the command between them, and a path behind a double dash. It is read as the command line that it
means, and one that gives an option twice is refused (`command_lines_read_back`).
-/

set_option autoImplicit false

namespace OrderOfGrowth

namespace Command

open CommandLine (CommandName CommandOption)

def name : Command → CommandName
  | .analyze _ => .analyze
  | .sample => .sample
  | .report _ _ _ => .report
  | .highlight _ => .highlight
  | .config _ => .config

-- The options of a command with their values, in one order. The default output may be left out.
def entries (complete : Bool) : Command → List (CommandOption × Text)
  | .report _ output title =>
    (if complete ∨ output ≠ CommandLine.defaultOutput then [(.output, output)] else []) ++
      title.toList.map fun title => (.title, title)
  | .config default => if default then [(.default, [])] else []
  | _ => []

end Command

namespace CommandLine

def entries (line : CommandLine) : List (ProgramOption × Text) :=
  (line.format.toList.map fun format => (.format, format.name)) ++
    (line.config.toList.map fun path => (.config, path)) ++
    (if line.verbose then [(.verbose, [])] else []) ++
    if line.noColor then [(.noColor, [])] else []

structure PathsNonempty (line : CommandLine) : Prop where
  config : ∀ path ∈ line.config, path ≠ []
  source : ∀ path ∈ line.command.sourcePath?, path ≠ []
  output : ∀ path ∈ line.command.outputPath?, path ≠ []

inductive ProgramWord : Word ProgramOption → Prop
  | format (format : Format) : ProgramWord ⟨.format, format.name, "--format=".toList ++ format.name⟩
  | config (path : Text) (nonempty : path ≠ []) : ProgramWord ⟨.config, path, "--config=".toList ++ path⟩
  | verbose : ProgramWord ⟨.verbose, [], "--verbose".toList⟩
  | verboseLetter : ProgramWord ⟨.verbose, [], "-v".toList⟩
  | noColor : ProgramWord ⟨.noColor, [], "--no-color".toList⟩

inductive CommandWord : CommandName → Word CommandOption → Prop
  | output (path : Text) (nonempty : path ≠ []) :
    CommandWord .report ⟨.output, path, "--output=".toList ++ path⟩
  | title (title : Text) : CommandWord .report ⟨.title, title, "--title=".toList ++ title⟩
  | default : CommandWord .config ⟨.default, [], "--default".toList⟩

def CommandName.words : CommandName → List Text
  | .analyze => ["analyze".toList, "a".toList]
  | .sample => ["sample".toList]
  | .report => ["report".toList]
  | .highlight => ["highlight".toList, "hl".toList]
  | .config => ["config".toList]

-- A list of arguments in its four parts.
structure Writing where
  front : List (Word ProgramOption)
  name : CommandName
  named : Text
  own : List (Word CommandOption)
  path : Option Text
  frontWords : ∀ word ∈ front, ProgramWord word
  namedWord : named ∈ name.words
  ownWords : ∀ word ∈ own, CommandWord name word
  pathNonempty : ∀ p ∈ path, p ≠ []

namespace Writing

def pathArguments : Option Text → List Text
  | none => []
  | some path => ["--".toList, path]

def arguments (writing : Writing) : List Text :=
  writing.front.map Word.text ++ writing.named :: (writing.own.map Word.text ++ pathArguments writing.path)

-- A writing means a command line if its words stand for the options of that, each once, in some order.
structure Means (writing : Writing) (line : CommandLine) : Prop where
  front : (writing.front.map Word.entry).Perm line.entries
  name : writing.name = line.command.name
  own : ∃ complete, (writing.own.map Word.entry).Perm (line.command.entries complete)
  path : writing.path = line.command.sourcePath?

def Repeats (writing : Writing) : Prop :=
  ¬ (writing.front.map Word.option).Nodup ∨ ¬ (writing.own.map Word.option).Nodup

end Writing

def pathEntries (path : Option Text) : List (CommandOption × Text) :=
  path.toList.map fun path => (.path, path)

theorem program_word_taken (settled : List (ProgramOption × Text)) (word : Word ProgramOption)
    (known : ProgramWord word) : programScope.takeOptions? ⟨settled, none⟩ word.text =
      some (programScope.put ⟨settled, none⟩ word.option word.value) := by
  cases known with
  | format format => rfl
  | config path nonempty => rfl
  | verbose => rfl
  | verboseLetter =>
      change some (programScope.takeLetters _ ['v']) = _
      rw [last_letter_taken programScope _ 'v' .verbose rfl]
      rfl
  | noColor => rfl

theorem command_word_taken (name : CommandName) (settled : List (CommandOption × Text)) (word : Word CommandOption)
    (known : CommandWord name word) : name.scope.takeOptions? ⟨settled, none⟩ word.text =
      some (name.scope.put ⟨settled, none⟩ word.option word.value) := by
  cases known with
  | output path nonempty => rfl
  | title title => rfl
  | default => rfl

theorem word_not_path (name : CommandName) (word : Word CommandOption) (known : CommandWord name word) :
    word.option ≠ .path := by
  cases known <;> exact nofun

theorem program_takes_words : TakesWords programScope ProgramWord readProgram where
  accepts word known := by
    cases known with
    | format format => cases format <;> rfl
    | config path nonempty => exact decide_eq_true nonempty
    | verbose => rfl
    | verboseLetter => rfl
    | noColor => rfl
  takes settled word args known := by
    have taken := program_word_taken settled word known
    obtain ⟨s, dashed, notDashes⟩ := taken_dashed programScope _ _ _ taken
    have notHelp : word.text ≠ helpWord := by simp [dashed, helpWord]
    have noCommand : CommandName.ofWord? word.text = none := by rw [dashed]; rfl
    rw [readProgram]
    simp only [Given.awaits, Bool.not_false, Bool.true_and, beq_iff_eq, notHelp, if_false, noCommand, notDashes, taken]
    cases programScope.put ⟨settled, none⟩ word.option word.value <;> rfl

theorem command_takes_words (name : CommandName) : TakesWords name.scope (CommandWord name) name.readArguments where
  accepts word known := by
    cases known with
    | output path nonempty => exact decide_eq_true nonempty
    | title title => rfl
    | default => rfl
  takes settled word args known := by
    have taken := command_word_taken name settled word known
    obtain ⟨s, dashed, notDashes⟩ := taken_dashed name.scope _ _ _ taken
    rw [CommandName.readArguments]
    simp only [notDashes, if_false, taken]
    cases name.scope.put ⟨settled, none⟩ word.option word.value <;> rfl

theorem name_read (settled : List (ProgramOption × Text)) (name : CommandName) (named : Text) (args : List Text)
    (word : named ∈ name.words) :
    readProgram ⟨settled, none⟩ (named :: args) = readCommand ⟨settled, none⟩ name args := by
  have isName : CommandName.ofWord? named = some name ∧ named ≠ helpWord := by
    cases name <;> revert named <;> decide
  rw [readProgram]
  simp [Given.awaits, isName]

-- Behind the double dash the argument is a path, whatever it looks like.
theorem path_read (name : CommandName) (settled : List (CommandOption × Text)) (path : Option Text)
    (takes : path.isSome → name.takesPath = true) (nonempty : ∀ p ∈ path, p ≠ [])
    (free : .path ∉ settled.map Prod.fst) :
    name.readArguments ⟨settled, none⟩ (Writing.pathArguments path) =
      .ok ⟨settled ++ pathEntries path, none⟩ := by
  cases path with
  | none => simp [Writing.pathArguments, CommandName.readArguments, Scope.settle, pathEntries]
  | some path =>
      have accepted : name.scope.accepts .path path = true := decide_eq_true (nonempty path rfl)
      have absent : ¬ (⟨settled, none⟩ : Given CommandOption).has .path = true := by
        simpa [Given.has] using free
      have taken : name.takePath ⟨settled, none⟩ path = .ok ⟨settled, some (.path, some path)⟩ := by
        rw [CommandName.takePath, takes rfl, Bool.eq_false_iff.mpr absent]
        rfl
      rw [Writing.pathArguments, CommandName.readArguments, if_pos rfl, CommandName.readPaths, taken]
      exact put_new name.scope settled .path path free accepted

namespace Writing

variable (writing : Writing)

theorem front_read : ofArguments writing.arguments =
    if (writing.front.map Word.option).Nodup then
      readCommand ⟨writing.front.map Word.entry, none⟩ writing.name
        (writing.own.map Word.text ++ pathArguments writing.path)
    else .error .argumentConflict := by
  have read := words_read programScope ProgramWord readProgram program_takes_words [] writing.front
    (writing.named :: (writing.own.map Word.text ++ pathArguments writing.path)) writing.frontWords List.nodup_nil
  rw [List.nil_append, options_of_words, name_read _ writing.name _ _ writing.namedWord] at read
  exact read

theorem own_read : writing.name.readArguments .none (writing.own.map Word.text ++ pathArguments writing.path) =
    if (writing.own.map Word.option).Nodup then
      writing.name.readArguments ⟨writing.own.map Word.entry, none⟩ (pathArguments writing.path)
    else .error .argumentConflict := by
  have read := words_read writing.name.scope (CommandWord writing.name) _ (command_takes_words writing.name) []
    writing.own (pathArguments writing.path) writing.ownWords List.nodup_nil
  rw [List.nil_append, options_of_words] at read
  exact read

theorem once_read (once : ¬ writing.Repeats) (takes : writing.path.isSome → writing.name.takesPath = true) :
    ofArguments writing.arguments = .ok (assemble ⟨writing.front.map Word.entry, none⟩ (writing.name.toCommand
      ⟨writing.own.map Word.entry ++ pathEntries writing.path, none⟩)) := by
  rw [Repeats, not_or, not_not, not_not] at once
  have free : .path ∉ (writing.own.map Word.entry).map Prod.fst := by
    rw [options_of_words]
    intro member
    obtain ⟨word, inside, isPath⟩ := List.mem_map.mp member
    exact word_not_path writing.name word (writing.ownWords word inside) isPath
  rw [front_read, if_pos once.1, readCommand, own_read, if_pos once.2,
    path_read writing.name _ writing.path takes writing.pathNonempty free]
  rfl

end Writing

theorem entries_once (line : CommandLine) : (line.entries.map Prod.fst).Nodup := by
  obtain ⟨format, config, verbose, noColor, command⟩ := line
  cases format <;> cases config <;> cases verbose <;> cases noColor <;> simp [entries]

theorem entries_assembled (line : CommandLine) : assemble ⟨line.entries, none⟩ line.command = line := by
  obtain ⟨format, config, verbose, noColor, command⟩ := line
  have values : assemble ⟨entries ⟨format, config, verbose, noColor, command⟩, none⟩ command =
      ⟨(format.map Format.name).bind Format.ofName?, config, verbose, noColor, command⟩ := by
    cases format <;> cases config <;> cases verbose <;> cases noColor <;> rfl
  have named : (format.map Format.name).bind Format.ofName? = format := by
    cases format with
    | none => rfl
    | some format => cases format <;> rfl
  rw [values, named]

theorem command_entries_once (complete : Bool) (command : Command) :
    ((command.entries complete ++ pathEntries command.sourcePath?).map Prod.fst).Nodup := by
  cases command with
  | analyze path => cases path <;> simp [Command.entries, Command.sourcePath?, pathEntries]
  | sample => simp [Command.entries, Command.sourcePath?, pathEntries]
  | report path output title =>
      cases path <;> cases title <;> by_cases shown : complete ∨ output ≠ defaultOutput <;>
        simp [Command.entries, Command.sourcePath?, pathEntries, shown]
  | highlight path => cases path <;> simp [Command.entries, Command.sourcePath?, pathEntries]
  | config default => cases default <;> simp [Command.entries, Command.sourcePath?, pathEntries]

theorem entries_to_command (complete : Bool) (command : Command) : command.name.toCommand
    ⟨command.entries complete ++ pathEntries command.sourcePath?, none⟩ = command := by
  cases command with
  | analyze path => cases path <;> rfl
  | sample => rfl
  | report path output title =>
      by_cases shown : complete ∨ output ≠ defaultOutput
      · have whole : Command.entries complete (.report path output title) =
            (.output, output) :: title.toList.map fun title => (.title, title) := by
          rw [Command.entries, if_pos shown]
          rfl
        rw [whole]
        cases path <;> cases title <;> rfl
      · have output : output = defaultOutput := by simpa using (not_or.mp shown).2
        rw [output, Command.entries, if_neg (by rwa [output] at shown)]
        cases path <;> cases title <;> rfl
  | highlight path => cases path <;> rfl
  | config default => cases default <;> rfl

theorem assemble_in_any_order (settled others : List (ProgramOption × Text)) (same : settled.Perm others)
    (once : (settled.map Prod.fst).Nodup) (command : Command) :
    assemble ⟨settled, none⟩ command = assemble ⟨others, none⟩ command := by
  simp only [assemble, value_in_any_order settled others same once, has_in_any_order settled others same]

theorem to_command_in_any_order (name : CommandName) (settled others : List (CommandOption × Text))
    (same : settled.Perm others) (once : (settled.map Prod.fst).Nodup) :
    name.toCommand ⟨settled, none⟩ = name.toCommand ⟨others, none⟩ := by
  simp only [CommandName.toCommand, value_in_any_order settled others same once,
    has_in_any_order settled others same]

section Meaning

variable (writing : Writing) (line : CommandLine) (means : writing.Means line)
include means

theorem front_distinct : ((writing.front.map Word.entry).map Prod.fst).Nodup :=
  (means.front.map Prod.fst).nodup_iff.mpr (entries_once line)

theorem own_distinct : ((writing.own.map Word.entry ++ pathEntries line.command.sourcePath?).map Prod.fst).Nodup := by
  obtain ⟨complete, own⟩ := means.own
  have all := own.append_right (pathEntries line.command.sourcePath?)
  exact (all.map Prod.fst).nodup_iff.mpr (command_entries_once complete line.command)

theorem means_once : ¬ writing.Repeats := by
  have front := front_distinct writing line means
  have own := own_distinct writing line means
  rw [options_of_words] at front
  rw [List.map_append, options_of_words] at own
  exact not_or.mpr ⟨not_not_intro front, not_not_intro own.of_append_left⟩

theorem means_takes_path : writing.path.isSome → writing.name.takesPath = true := by
  rw [means.path, means.name]
  cases line.command with
  | sample => exact nofun
  | config default => exact nofun
  | _ => exact fun _ => rfl

end Meaning

theorem entry_written (line : CommandLine) (paths : line.PathsNonempty) :
    ∀ entry ∈ line.entries, ∃ word, ProgramWord word ∧ word.entry = entry := by
  intro entry member
  simp only [entries, List.mem_append, List.mem_map, Option.mem_toList, List.mem_ite_nil_right,
    List.mem_singleton] at member
  rcases member with ((⟨format, -, rfl⟩ | ⟨path, given, rfl⟩) | ⟨-, rfl⟩) | ⟨-, rfl⟩
  · exact ⟨_, .format format, rfl⟩
  · exact ⟨_, .config path (paths.config path given), rfl⟩
  · exact ⟨_, .verbose, rfl⟩
  · exact ⟨_, .noColor, rfl⟩

theorem command_entry_written (command : Command) (complete : Bool)
    (nonempty : ∀ path ∈ command.outputPath?, path ≠ []) :
    ∀ entry ∈ command.entries complete, ∃ word, CommandWord command.name word ∧ word.entry = entry := by
  intro entry member
  cases command with
  | report path output title =>
      simp only [Command.entries, List.mem_append, List.mem_map, Option.mem_toList, List.mem_ite_nil_right,
        List.mem_singleton] at member
      rcases member with ⟨-, rfl⟩ | ⟨title, -, rfl⟩
      · exact ⟨_, .output output (nonempty output rfl), rfl⟩
      · exact ⟨_, .title title, rfl⟩
  | config default =>
      simp only [Command.entries, List.mem_ite_nil_right, List.mem_singleton] at member
      exact ⟨_, .default, member.2.symm⟩
  | _ => cases member

theorem line_written (line : CommandLine) (complete : Bool) (front : List (ProgramOption × Text)) (named : Text)
    (own : List (CommandOption × Text)) (paths : line.PathsNonempty) (isFront : front.Perm line.entries)
    (isName : named ∈ line.command.name.words) (isOwn : own.Perm (line.command.entries complete)) :
    ∃ writing : Writing, writing.Means line ∧ writing.front.map Word.entry = front ∧ writing.named = named ∧
      writing.own.map Word.entry = own := by
  obtain ⟨words, known, rfl⟩ := words_of_entries ProgramWord front fun entry member =>
    entry_written line paths entry (isFront.mem_iff.mp member)
  obtain ⟨others, othersKnown, rfl⟩ := words_of_entries (CommandWord line.command.name) own fun entry member =>
    command_entry_written line.command complete paths.output entry (isOwn.mem_iff.mp member)
  exact ⟨⟨words, line.command.name, named, others, line.command.sourcePath?, known, isName, othersKnown, paths.source⟩,
    ⟨isFront, rfl, ⟨complete, isOwn⟩, rfl⟩, rfl, rfl, rfl⟩

/-- A command line can be written with the options of each scope in any order and with any word of its command,
and all its writings are read as it, with values and paths that look like options or commands. A writing that
gives an option of either scope twice is refused for that. -/
theorem command_lines_read_back :
    (∀ (line : CommandLine) (complete : Bool) (front : List (ProgramOption × Text)) (named : Text)
        (own : List (CommandOption × Text)), line.PathsNonempty → front.Perm line.entries →
        named ∈ line.command.name.words → own.Perm (line.command.entries complete) →
        ∃ writing : Writing, writing.Means line ∧ writing.front.map Word.entry = front ∧ writing.named = named ∧
          writing.own.map Word.entry = own) ∧
      (∀ (line : CommandLine) (writing : Writing), writing.Means line → ofArguments writing.arguments = .ok line) ∧
      ∀ writing : Writing, writing.Repeats → ofArguments writing.arguments = .error .argumentConflict := by
  refine ⟨line_written, fun line writing means => ?_, fun writing repeats => ?_⟩
  · obtain ⟨complete, own⟩ := means.own
    have all := own.append_right (pathEntries line.command.sourcePath?)
    rw [writing.once_read (means_once writing line means) (means_takes_path writing line means), means.name,
      means.path, to_command_in_any_order _ _ _ all (own_distinct writing line means), entries_to_command,
      assemble_in_any_order _ _ means.front (front_distinct writing line means), entries_assembled]
  · rw [writing.front_read]
    by_cases once : (writing.front.map Word.option).Nodup
    · have own : ¬ (writing.own.map Word.option).Nodup := repeats.resolve_left (not_not_intro once)
      rw [if_pos once, readCommand, writing.own_read, if_neg own]
      rfl
    · rw [if_neg once]

-- Paths and titles that look like options, and the flag by its letter.
def hostileLine : CommandLine :=
  { format := some .markdown
    config := some "-v".toList
    verbose := true
    noColor := true
    command := .report (some "--help".toList) "=-o".toList (some "--title=hl".toList) }

def hostileWriting : Writing where
  front :=
    [⟨.noColor, [], "--no-color".toList⟩, ⟨.config, "-v".toList, "--config=-v".toList⟩,
      ⟨.verbose, [], "-v".toList⟩, ⟨.format, "markdown".toList, "--format=markdown".toList⟩]
  name := .report
  named := "report".toList
  own :=
    [⟨.title, "--title=hl".toList, "--title=--title=hl".toList⟩, ⟨.output, "=-o".toList, "--output==-o".toList⟩]
  path := some "--help".toList
  frontWords := by
    simp only [List.forall_mem_cons]
    exact ⟨.noColor, .config _ (by decide), .verboseLetter, .format .markdown, nofun⟩
  namedWord := by decide
  ownWords := by
    simp only [List.forall_mem_cons]
    exact ⟨.title _, .output _ (by decide), nofun⟩
  pathNonempty := by decide

-- A report that goes to the file it goes to when no output is named.
def unnamedLine : CommandLine :=
  { format := none
    config := none
    verbose := false
    noColor := false
    command := .report none "bigo-report.html".toList (some "--output".toList) }

def unnamedWriting : Writing where
  front := []
  name := .report
  named := "report".toList
  own := [⟨.title, "--output".toList, "--title=--output".toList⟩]
  path := none
  frontWords := nofun
  namedWord := by decide
  ownWords := by
    simp only [List.forall_mem_cons]
    exact ⟨.title _, nofun⟩
  pathNonempty := nofun

def repeatingWriting : Writing where
  front := [⟨.verbose, [], "-v".toList⟩, ⟨.noColor, [], "--no-color".toList⟩, ⟨.verbose, [], "--verbose".toList⟩]
  name := .analyze
  named := "a".toList
  own := []
  path := none
  frontWords := by
    simp only [List.forall_mem_cons]
    exact ⟨.verboseLetter, .noColor, .verbose, nofun⟩
  namedWord := by decide
  ownWords := nofun
  pathNonempty := nofun

theorem hostile_line_reads_back :
    hostileLine.PathsNonempty ∧
      (∃ writing : Writing, writing.Means hostileLine ∧
        writing.front.map Word.entry = hostileLine.entries.reverse ∧ writing.named = "report".toList ∧
        writing.own.map Word.entry = (hostileLine.command.entries false).reverse) ∧
      hostileWriting.Means hostileLine ∧
      ofArguments (["--no-color", "--config=-v", "-v", "--format=markdown", "report", "--title=--title=hl",
        "--output==-o", "--", "--help"].map String.toList) = .ok hostileLine ∧
      unnamedWriting.Means unnamedLine ∧
      ofArguments (["report", "--title=--output"].map String.toList) = .ok unnamedLine ∧
      repeatingWriting.Repeats ∧
      ofArguments (["-v", "--no-color", "--verbose", "a"].map String.toList) = .error .argumentConflict := by
  have paths : hostileLine.PathsNonempty := ⟨by decide, by decide, by decide⟩
  have means : hostileWriting.Means hostileLine := ⟨by decide, rfl, ⟨true, by decide⟩, rfl⟩
  have unnamed : unnamedWriting.Means unnamedLine := ⟨by decide, rfl, ⟨false, by decide⟩, rfl⟩
  have repeats : repeatingWriting.Repeats := .inl (by decide)
  exact ⟨paths,
    command_lines_read_back.1 hostileLine false _ _ _ paths (List.reverse_perm _) (by decide) (List.reverse_perm _),
    means, command_lines_read_back.2.1 hostileLine hostileWriting means,
    unnamed, command_lines_read_back.2.1 unnamedLine unnamedWriting unnamed, repeats,
    command_lines_read_back.2.2 repeatingWriting repeats⟩

end CommandLine

end OrderOfGrowth
