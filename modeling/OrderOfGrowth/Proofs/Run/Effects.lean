import OrderOfGrowth.Proofs.Files.Writing
import OrderOfGrowth.Proofs.Settings.Directory
import OrderOfGrowth.Run

/-!
What a run does. A command that succeeds does one of five things (`perform_ok_iff`), and one that fails
has done nothing (`perform_cautious`): what can fail comes before what is printed, and the one file that
may be written comes last of it (`reports_alone_write`).
-/

set_option autoImplicit false

namespace OrderOfGrowth.Run

open Files (Tree Place)

section Steps

variable {α β ε : Type}

theorem bind_ok_iff (action : Action α) (next : α → Action β) (done after : Effects) (b : β) :
    (action >>= next) done = .ok b after ↔
      ∃ a between, action done = .ok a between ∧ next a between = .ok b after := by
  change EStateM.bind action next done = .ok b after ↔ _
  rw [EStateM.bind]
  cases action done with
  | ok a between => simp
  | error failure between => simp

theorem bind_error_iff (action : Action α) (next : α → Action β) (done after : Effects)
    (failure : Failure) : (action >>= next) done = .error failure after ↔
      action done = .error failure after ∨
        ∃ a between, action done = .ok a between ∧ next a between = .error failure after := by
  change EStateM.bind action next done = .error failure after ↔ _
  rw [EStateM.bind]
  cases action done with
  | ok a between => simp
  | error failure between => simp

theorem settle_ok_iff (fail : ε → Failure) (result : Except ε α) (done after : Effects) (a : α) :
    settle fail result done = .ok a after ↔ result = .ok a ∧ after = done := by
  cases result with
  | ok b => simp [settle, pure, EStateM.pure, eq_comm]
  | error error => simp [settle, throw, throwThe, MonadExceptOf.throw, EStateM.throw]

theorem settle_error (fail : ε → Failure) (result : Except ε α) (done after : Effects)
    (failure : Failure) (failed : settle fail result done = .error failure after) : after = done := by
  cases result with
  | ok b => cases failed
  | error error => cases failed; rfl

-- A step that only looks, a step that has done nothing when it fails, and a step that cannot fail.
def Observes (action : Action α) : Prop :=
  ∀ done a after, action done = .ok a after → after = done

def Cautious (action : Action α) : Prop :=
  ∀ done failure after, action done = .error failure after → after = done

def Sure (action : Action α) : Prop :=
  ∀ done failure after, action done ≠ .error failure after

theorem sure_cautious (action : Action α) (sure : Sure action) : Cautious action :=
  fun done failure after failed => absurd failed (sure done failure after)

-- Nothing has been done yet when the second step begins.
theorem cautious_look (action : Action α) (next : α → Action β) (cautious : Cautious action)
    (observes : Observes action) (then_ : ∀ a, Cautious (next a)) : Cautious (action >>= next) := by
  intro done failure after failed
  rcases (bind_error_iff action next done after failure).mp failed with first | ⟨a, between, looked, later⟩
  · exact cautious done failure after first
  · rw [then_ a between failure after later]
    exact observes done a between looked

-- Nothing fails any more when the second step begins.
theorem cautious_act (action : Action α) (next : α → Action β) (cautious : Cautious action)
    (then_ : ∀ a, Sure (next a)) : Cautious (action >>= next) := by
  intro done failure after failed
  rcases (bind_error_iff action next done after failure).mp failed with first | ⟨a, between, -, later⟩
  · exact cautious done failure after first
  · exact absurd later (then_ a between failure after)

end Steps

theorem get_ok_iff (done after found : Effects) :
    (get : Action Effects) done = .ok found after ↔ found = done ∧ after = done := by
  constructor
  · intro looked
    cases looked
    exact ⟨rfl, rfl⟩
  · rintro ⟨rfl, rfl⟩
    rfl

theorem set_ok_iff (done after next : Effects) (value : PUnit) :
    (set next : Action PUnit) done = .ok value after ↔ after = next := by
  constructor
  · intro changed
    cases changed
    rfl
  · rintro rfl
    rfl

theorem print_ok_iff (text : Text) (done after : Effects) (value : Unit) :
    print text done = .ok value after ↔ after = ⟨done.output ++ text, done.files⟩ := by
  constructor
  · intro printed
    cases printed
    rfl
  · rintro rfl
    rfl

theorem print_sure (text : Text) : Sure (print text) :=
  fun _ _ _ failed => nomatch failed

section Commands

variable (around : Surroundings)

theorem load_settings_ok_iff (config : Option Text) (done after : Effects) (settings : Settings) :
    loadSettings around config done = .ok settings after ↔
      settingsOf around done.files config = .ok settings ∧ after = done :=
  settle_ok_iff _ _ done after settings

theorem load_settings_cautious (config : Option Text) : Cautious (loadSettings around config) :=
  fun done failure after failed => settle_error _ _ done after failure failed

theorem load_settings_observes (config : Option Text) : Observes (loadSettings around config) :=
  fun done settings after loaded => ((load_settings_ok_iff around config done after settings).mp loaded).2

theorem read_source_ok_iff (path : Option Text) (done after : Effects) (source : SourceFile) :
    readSource around path done = .ok source after ↔
      SourceFile.loadOrInput done.files around.working around.input path = .ok source ∧ after = done :=
  settle_ok_iff _ _ done after source

theorem read_source_cautious (path : Option Text) : Cautious (readSource around path) :=
  fun done failure after failed => settle_error _ _ done after failure failed

theorem read_source_observes (path : Option Text) : Observes (readSource around path) :=
  fun done source after read => ((read_source_ok_iff around path done after source).mp read).2

theorem save_ok_iff (path : Text) (bytes : List UInt8) (done after : Effects) (value : Unit) :
    save around path bytes done = .ok value after ↔ ∃ place,
      done.files.target around.working path = .ok place ∧ after = ⟨done.output, done.files.put bytes place⟩ := by
  simp only [save, bind_ok_iff, get_ok_iff, settle_ok_iff, set_ok_iff, Tree.write_ok_iff]
  constructor
  · rintro ⟨_, _, ⟨rfl, rfl⟩, _, _, ⟨⟨place, led, rfl⟩, rfl⟩, rfl⟩
    exact ⟨place, led, rfl⟩
  · rintro ⟨place, led, rfl⟩
    exact ⟨done, done, ⟨rfl, rfl⟩, _, done, ⟨⟨place, led, rfl⟩, rfl⟩, rfl⟩

theorem save_cautious (path : Text) (bytes : List UInt8) : Cautious (save around path bytes) := by
  apply cautious_look
  · exact fun _ _ _ failed => nomatch failed
  · exact fun done found after looked => ((get_ok_iff done after found).mp looked).2
  · intro found
    apply cautious_act
    · exact fun done failure after failed => settle_error _ _ done after failure failed
    · exact fun _ _ _ _ failed => nomatch failed

def sampleText (format : Format) (colored : Bool) : Text :=
  (if format = .text then Presenter.sampleSource ++ "\n\n".toList else []) ++
    (Analysis.ofSource Presenter.sampleSource).write format colored

theorem sample_shown (settings : Settings) (format : Format) (colored : Bool) (done : Effects) :
    sample settings format colored done = .ok () ⟨done.output ++ sampleText format colored, done.files⟩ := by
  rw [sampleText, ← List.append_assoc]
  cases format with
  | text => rfl
  | json => rw [if_neg (by decide), List.append_nil]; rfl
  | markdown => rw [if_neg (by decide), List.append_nil]; rfl

-- What a command that succeeds has done, with the settings that were loaded for it.
inductive Does (line : CommandLine) (settings : Settings) (done : Effects) : Command → Effects → Prop where
  | analyze (path : Option Text) (source : SourceFile)
      (read : SourceFile.loadOrInput done.files around.working around.input path = .ok source) :
      Does line settings done (.analyze path)
        ⟨done.output ++ (Analysis.ofSource source.text).write (formatOf line settings)
          (isColored line settings around), done.files⟩
  | sample :
      Does line settings done .sample
        ⟨done.output ++ sampleText (formatOf line settings) (isColored line settings around),
          done.files⟩
  | report (path : Option Text) (output : Text) (title : Option Text) (source : SourceFile) (place : Place)
      (read : SourceFile.loadOrInput done.files around.working around.input path = .ok source)
      (led : done.files.target around.working output = .ok place) :
      Does line settings done (.report path output title)
        ⟨done.output ++ ("Report written to ".toList ++ output ++ ['\n']),
          done.files.put (Text.encode (pageOf settings title source)) place⟩
  | highlight (path : Option Text) (source : SourceFile)
      (read : SourceFile.loadOrInput done.files around.working around.input path = .ok source) :
      Does line settings done (.highlight path)
        ⟨done.output ++ ((highlighter settings).highlight settings.highlight.language source.text ++ ['\n']),
          done.files⟩
  | config (default : Bool) :
      Does line settings done (.config default)
        ⟨done.output ++ (if default then Toml.shipped else Toml.write settings), done.files⟩

theorem perform_ok_iff (line : CommandLine) (done after : Effects) (value : Unit) :
    perform around line done = .ok value after ↔ ∃ settings,
      settingsOf around done.files line.config = .ok settings ∧
        Does around line settings done line.command after := by
  simp only [perform, bind_ok_iff, load_settings_ok_iff]
  constructor
  · rintro ⟨settings, _, ⟨loaded, rfl⟩, ran⟩
    refine ⟨settings, loaded, ?_⟩
    cases asked : line.command with
    | analyze path =>
        simp only [asked, analyze, bind_ok_iff, read_source_ok_iff, print_ok_iff] at ran
        obtain ⟨source, _, ⟨read, rfl⟩, rfl⟩ := ran
        exact .analyze path source read
    | sample =>
        simp only [asked, sample_shown, EStateM.Result.ok.injEq, true_and] at ran
        subst ran
        exact .sample
    | report path output title =>
        simp only [asked, report, bind_ok_iff, read_source_ok_iff, save_ok_iff, print_ok_iff] at ran
        obtain ⟨source, _, ⟨read, rfl⟩, -, _, ⟨place, led, rfl⟩, rfl⟩ := ran
        exact .report path output title source place read led
    | highlight path =>
        simp only [asked, highlight, bind_ok_iff, read_source_ok_iff, print_ok_iff] at ran
        obtain ⟨source, _, ⟨read, rfl⟩, rfl⟩ := ran
        exact .highlight path source read
    | config default =>
        simp only [asked, showSettings, print_ok_iff] at ran
        subst ran
        exact .config default
  · rintro ⟨settings, loaded, does⟩
    refine ⟨settings, done, ⟨loaded, rfl⟩, ?_⟩
    cases asked : line.command with
    | analyze path =>
        rw [asked] at does
        obtain ⟨_, source, read⟩ := does
        simp only [analyze, bind_ok_iff, read_source_ok_iff, print_ok_iff]
        exact ⟨source, done, ⟨read, rfl⟩, rfl⟩
    | sample =>
        rw [asked] at does
        cases does
        exact sample_shown settings _ _ done
    | report path output title =>
        rw [asked] at does
        cases does with
        | report _ _ _ source place read led =>
            simp only [report, bind_ok_iff, read_source_ok_iff, save_ok_iff, print_ok_iff]
            exact ⟨source, done, ⟨read, rfl⟩, (), _, ⟨place, led, rfl⟩, rfl⟩
    | highlight path =>
        rw [asked] at does
        cases does with
        | highlight _ source read =>
            simp only [highlight, bind_ok_iff, read_source_ok_iff, print_ok_iff]
            exact ⟨source, done, ⟨read, rfl⟩, rfl⟩
    | config default =>
        rw [asked] at does
        cases does
        simp only [showSettings, print_ok_iff]

theorem perform_cautious (line : CommandLine) : Cautious (perform around line) := by
  apply cautious_look _ _ (load_settings_cautious around line.config) (load_settings_observes around line.config)
  intro settings
  cases line.command with
  | analyze path =>
      apply cautious_look _ _ (read_source_cautious around path) (read_source_observes around path)
      exact fun source => sure_cautious _ (print_sure _)
  | sample =>
      apply sure_cautious
      intro done failure after
      simp only [sample_shown]
      exact fun failed => nomatch failed
  | report path output title =>
      apply cautious_look _ _ (read_source_cautious around path) (read_source_observes around path)
      exact fun source => cautious_act _ _ (save_cautious around output _) fun _ => print_sure _
  | highlight path =>
      apply cautious_look _ _ (read_source_cautious around path) (read_source_observes around path)
      exact fun source => sure_cautious _ (print_sure _)
  | config default => exact sure_cautious _ (print_sure _)

end Commands

section Sources

variable (world : World)

-- The bytes of an input: of a file, or of the standard input if there is no path or the path is a dash.
inductive Supplies : Option Text → List UInt8 → Prop where
  | input : Supplies none world.input
  | dash (path : Text) (stands : Files.Path.isDash path = true) : Supplies (some path) world.input
  | file (path : Text) (bytes : List UInt8) (leads : Files.Path.isDash path = false)
      (holds : world.files.read world.working path = .ok bytes) : Supplies (some path) bytes

-- The path of an input that is a file.
def filePath (path : Option Text) : Option Text :=
  path.filter (!Files.Path.isDash ·)

theorem source_read_iff (path : Option Text) (source : SourceFile) :
    SourceFile.loadOrInput world.files world.working world.input path = .ok source ↔
      source.path = filePath path ∧ Supplies world path source.bytes := by
  constructor
  · intro loaded
    cases path with
    | none =>
        cases loaded
        exact ⟨rfl, .input⟩
    | some path =>
        rw [SourceFile.loadOrInput] at loaded
        split at loaded
        · rename_i stands
          cases loaded
          exact ⟨by rw [filePath, Option.filter_some, stands]; rfl, .dash path stands⟩
        · rename_i leads
          rw [SourceFile.load] at loaded
          split at loaded
          · cases loaded
          · cases holds : world.files.read world.working path with
            | error refusal => rw [holds] at loaded; cases loaded
            | ok bytes =>
                rw [holds] at loaded
                cases loaded
                rw [Bool.not_eq_true] at leads
                exact ⟨by rw [filePath, Option.filter_some, leads]; rfl, .file path bytes leads holds⟩
  · obtain ⟨own, bytes⟩ := source
    rintro ⟨rfl, supplied⟩
    cases supplied with
    | input => rfl
    | dash path stands =>
        rw [SourceFile.loadOrInput, if_pos stands, filePath, Option.filter_some, stands]
        rfl
    | file path bytes leads holds =>
        have there := Settings.read_is_there world.files world.working path bytes holds
        rw [SourceFile.loadOrInput, leads, if_neg Bool.false_ne_true, SourceFile.load, there, holds, filePath,
          Option.filter_some, leads]
        rfl

theorem supplies_unique (path : Option Text) (one other : List UInt8) (supplied : Supplies world path one)
    (also : Supplies world path other) : one = other := by
  have read := (source_read_iff world path ⟨filePath path, one⟩).mpr ⟨rfl, supplied⟩
  have again := (source_read_iff world path ⟨filePath path, other⟩).mpr ⟨rfl, also⟩
  cases read.symm.trans again
  rfl

-- The settings that count for a command line: those of the file that it names, or those of the working
-- directory.
inductive Configures (line : CommandLine) : Settings → Prop where
  | named (path : Text) (settings : Settings) (names : line.config = some path)
      (loaded : Settings.fromFile world.files world.working world.environment path = .ok settings) :
      Configures line settings
  | found (settings : Settings) (unnamed : line.config = none)
      (loaded : Settings.fromDirectory world.files world.working world.environment ['.'] = .ok settings) :
      Configures line settings

theorem configures_iff (line : CommandLine) (settings : Settings) :
    Configures world line settings ↔
      settingsOf world.toSurroundings world.files line.config = .ok settings := by
  constructor
  · intro configures
    cases configures with
    | named path _ names loaded => rwa [names]
    | found _ unnamed loaded => rwa [unnamed]
  · intro loaded
    cases asked : line.config with
    | some path =>
        rw [asked] at loaded
        exact .named path settings asked loaded
    | none =>
        rw [asked] at loaded
        exact .found settings asked loaded

theorem configures_unique (line : CommandLine) (one other : Settings) (configures : Configures world line one)
    (also : Configures world line other) : one = other := by
  rw [configures_iff] at configures also
  exact Except.ok.inj (configures.symm.trans also)

end Sources

-- Arguments that are a command line which asks for this.
def Asks (args : List Text) (command : Command) : Prop :=
  ∃ line, CommandLine.ofArguments args = .ok line ∧ line.command = command

section Arguments

variable (world : World) (args : List Text)

theorem rejected_leaves (rejection : CommandLine.Rejection) :
    (reject world rejection).files = world.files ∧
      ((reject world rejection).exit ≠ 0 → (reject world rejection).output = []) := by
  cases rejection with
  | versionWanted => exact ⟨rfl, fun failed => absurd rfl failed⟩
  | _ => exact ⟨rfl, fun _ => rfl⟩

theorem of_arguments_rejected (rejection : CommandLine.Rejection)
    (rejected : CommandLine.ofArguments args = .error rejection) :
    ofArguments world args = reject world rejection := by
  rw [ofArguments, rejected]

-- A command line fails and leaves everything as it was, or it succeeds and does what it asks for.
theorem of_arguments_line (line : CommandLine) (read : CommandLine.ofArguments args = .ok line) :
    (∃ message, ofArguments world args = ⟨1, [], some message, world.files⟩) ∨
      ∃ settings after, Configures world line settings ∧
        Does world.toSurroundings line settings ⟨[], world.files⟩ line.command after ∧
        ofArguments world args = ⟨0, after.output, none, after.files⟩ := by
  simp only [ofArguments, read]
  cases ran : perform world.toSurroundings line ⟨[], world.files⟩ with
  | error failure after =>
      left
      rw [perform_cautious _ line _ failure after ran]
      exact ⟨_, rfl⟩
  | ok value after =>
      right
      obtain ⟨settings, loaded, does⟩ := (perform_ok_iff _ line _ after value).mp ran
      exact ⟨settings, after, (configures_iff world line settings).mpr loaded, does, rfl⟩

theorem ran_of_does (line : CommandLine) (settings : Settings) (after : Effects)
    (read : CommandLine.ofArguments args = .ok line)
    (configures : Configures world line settings)
    (does : Does world.toSurroundings line settings ⟨[], world.files⟩ line.command after) :
    ofArguments world args = ⟨0, after.output, none, after.files⟩ := by
  have loaded := (configures_iff world line settings).mp configures
  have ran := (perform_ok_iff world.toSurroundings line ⟨[], world.files⟩ after ()).mpr ⟨settings, loaded, does⟩
  simp only [ofArguments, read, ran]

theorem does_files (around : Surroundings) (line : CommandLine) (settings : Settings) (done after : Effects)
    (command : Command) (does : Does around line settings done command after)
    (other : ∀ path output title, command ≠ .report path output title) : after.files = done.files := by
  cases does with
  | report path output title => exact absurd rfl (other path output title)
  | _ => rfl

theorem page_of_source (settings : Settings) (title path : Option Text) (source : SourceFile)
    (shown : source.path = filePath path) :
    pageOf settings title source =
      (Report.render (title.getD settings.report.title) ((filePath path).getD "<stdin>".toList)
        ((Presenter.empty (Markup.Highlighter.highlight (if settings.highlight.enabled then .tokens else .plain))
          settings.highlight.language).setSource (Text.decode source.bytes))).2 := by
  rw [pageOf, SourceFile.displayName, shown]
  rfl

/-- A run that fails has printed nothing and changed no file. Only a report changes a file when it
succeeds: the one that its output path leads to, which then holds the page of a fresh presenter on the
input as it was read before. -/
theorem reports_alone_write :
    ((ofArguments world args).exit ≠ 0 →
        (ofArguments world args).output = [] ∧ (ofArguments world args).files = world.files) ∧
      ((∀ path output title, ¬ Asks args (.report path output title)) →
        (ofArguments world args).files = world.files) ∧
      ∀ line path output title, CommandLine.ofArguments args = .ok line →
        line.command = .report path output title → (ofArguments world args).exit = 0 →
        ∃ settings bytes place, Configures world line settings ∧ Supplies world path bytes ∧
          Tree.Written world.files (ofArguments world args).files world.working output
            (Text.encode
              (Report.render (title.getD settings.report.title) ((filePath path).getD "<stdin>".toList)
                ((Presenter.empty
                  (Markup.Highlighter.highlight (if settings.highlight.enabled then .tokens else .plain))
                  settings.highlight.language).setSource (Text.decode bytes))).2)
            place := by
  cases read : CommandLine.ofArguments args with
  | error rejection =>
      have leaves := rejected_leaves world rejection
      rw [of_arguments_rejected world args rejection read]
      exact ⟨fun failed => ⟨leaves.2 failed, leaves.1⟩, fun _ => leaves.1, fun _ _ _ _ line => nomatch line⟩
  | ok line =>
      rcases of_arguments_line world args line read with
        ⟨message, failed⟩ | ⟨settings, after, configures, does, ran⟩
      · rw [failed]
        exact ⟨fun _ => ⟨rfl, rfl⟩, fun _ => rfl, fun _ _ _ _ _ _ succeeded => nomatch succeeded⟩
      · rw [ran]
        refine ⟨fun failed => absurd rfl failed, ?_, ?_⟩
        · intro silent
          apply does_files _ line settings _ after line.command does
          intro path output title asked
          exact silent path output title ⟨line, read, asked⟩
        · rintro _ path output title ⟨⟩ asked -
          rw [asked] at does
          cases does with
          | report _ _ _ source place found led =>
              obtain ⟨shown, supplied⟩ := (source_read_iff world path source).mp found
              refine ⟨settings, source.bytes, place, configures, supplied, ?_⟩
              rw [← page_of_source settings title path source shown]
              exact Tree.put_written _ _ place output _ led

end Arguments

-- A report that takes the place of its own input.
def lonelySource : SourceFile :=
  ⟨some ['a'], Text.encode "g() \x7b \x7d".toList⟩

def lonelyWorld : World :=
  { working := [], environment := [], input := [], files := .directory [(['a'], .file lonelySource.bytes)] }

def replacing : CommandLine :=
  ⟨none, none, false, false, .report (some ['a']) ['a'] none⟩

def replacingArguments : List Text :=
  ["report".toList, ['a'], "-o".toList, ['a']]

theorem input_replaced :
    (ofArguments lonelyWorld replacingArguments).exit = 0 ∧
      ∃ place, Tree.Written lonelyWorld.files (ofArguments lonelyWorld replacingArguments).files
        lonelyWorld.working ['a']
        (Text.encode
          (Report.render "Time Complexity Analysis".toList ['a']
            ((Presenter.empty Markup.Highlighter.tokens.highlight ['c']).setSource "g() \x7b \x7d".toList)).2)
        place := by
  have read : CommandLine.ofArguments replacingArguments = .ok replacing := rfl
  have configures : Configures lonelyWorld replacing {} :=
    .found {} rfl (Settings.default_settings [] fun _ member => absurd member List.not_mem_nil)
  have supplied : Supplies lonelyWorld (some ['a']) lonelySource.bytes := .file ['a'] _ rfl rfl
  have found := (source_read_iff lonelyWorld (some ['a']) lonelySource).mpr ⟨rfl, supplied⟩
  have ran := ran_of_does lonelyWorld replacingArguments replacing {} _ read configures
    (.report (some ['a']) ['a'] none lonelySource [['a']] found rfl)
  have succeeded : (ofArguments lonelyWorld replacingArguments).exit = 0 := by rw [ran]
  obtain ⟨settings, bytes, place, configuresToo, suppliedToo, written⟩ :=
    (reports_alone_write lonelyWorld replacingArguments).2.2 replacing _ _ _ read rfl succeeded
  obtain rfl := configures_unique lonelyWorld replacing _ _ configures configuresToo
  obtain rfl := supplies_unique lonelyWorld _ _ _ supplied suppliedToo
  have text : Text.decode lonelySource.bytes = "g() \x7b \x7d".toList := rfl
  rw [text] at written
  exact ⟨succeeded, place, written⟩

end OrderOfGrowth.Run
