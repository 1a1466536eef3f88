import OrderOfGrowth.Proofs.Run.Effects
import OrderOfGrowth.Proofs.Uncolored

/-!
What an analysis prints. It rests on the bytes that were read, the format and the colours, however the
run came by them (`printed_basis`), and where colours are off there is no style in it (`plain_unstyled`).
-/

set_option autoImplicit false

namespace OrderOfGrowth.Run

open Text (Unstyled)

structure Basis where
  bytes : List UInt8
  format : Format
  colored : Bool
  deriving DecidableEq, Repr

def Basis.printed (basis : Basis) : Text :=
  (Analysis.ofSource (Text.decode basis.bytes)).write basis.format basis.colored

-- Where styles are shown: colours are forced, or they are not refused, and the output is a terminal.
def StylesShown (around : Surroundings) : Prop :=
  (∃ v, around.environment.lookup "CLICOLOR_FORCE".toList = some v ∧ v ≠ ['0']) ∨
    (around.environment.lookup "NO_COLOR".toList = none ∧
      around.environment.lookup "CLICOLOR".toList ≠ some ['0'] ∧ around.terminal = true)

-- What the analysis that a run is asked for rests on. The format is the one that the command line gives,
-- or else the configured one; colours have to be configured, not turned off and shown.
inductive RestsOn (world : World) (args : List Text) : Basis → Prop where
  | analyze (line : CommandLine) (path : Option Text) (settings : Settings) (bytes : List UInt8) (colored : Bool)
      (read : CommandLine.ofArguments args = .ok line) (asked : line.command = .analyze path)
      (configures : Configures world line settings) (supplied : Supplies world path bytes)
      (color : colored = true ↔
        settings.output.color = true ∧ line.noColor = false ∧ StylesShown world.toSurroundings) :
      RestsOn world args ⟨bytes, line.format.getD settings.output.format, colored⟩

theorem shows_color_iff (around : Surroundings) : showsColor around = true ↔ StylesShown around := by
  rw [showsColor, StylesShown, switch?, switch?, switch?]
  cases forced : around.environment.lookup "CLICOLOR_FORCE".toList <;>
    cases refused : around.environment.lookup "NO_COLOR".toList <;>
      cases wanted : around.environment.lookup "CLICOLOR".toList <;> simp

theorem is_colored_iff (line : CommandLine) (settings : Settings) (around : Surroundings) :
    isColored line settings around = true ↔
      settings.output.color = true ∧ line.noColor = false ∧ StylesShown around := by
  rw [isColored, Bool.and_eq_true, Bool.and_eq_true, Bool.not_eq_true', shows_color_iff, and_assoc]

theorem rests_of_succeeded (world : World) (args : List Text) (path : Option Text)
    (asks : Asks args (.analyze path)) (succeeded : (ofArguments world args).exit = 0) :
    ∃ basis, RestsOn world args basis := by
  obtain ⟨line, read, asked⟩ := asks
  rcases of_arguments_line world args line read with ⟨message, failed⟩ | ⟨settings, after, configures, does, -⟩
  · rw [failed] at succeeded
    cases succeeded
  · rw [asked] at does
    cases does with
    | analyze _ source found =>
        obtain ⟨-, supplied⟩ := (source_read_iff world path source).mp found
        exact ⟨_, .analyze line path settings source.bytes _ read asked configures supplied
          (is_colored_iff line settings world.toSurroundings)⟩

theorem printed_basis (world : World) (args : List Text) (basis : Basis) (rests : RestsOn world args basis) :
    ofArguments world args = ⟨0, basis.printed, none, world.files⟩ := by
  obtain ⟨line, path, settings, bytes, colored, read, asked, configures, supplied, color⟩ := rests
  have found := (source_read_iff world path ⟨filePath path, bytes⟩).mpr ⟨rfl, supplied⟩
  obtain rfl : colored = isColored line settings world.toSurroundings :=
    Bool.eq_iff_iff.mpr (color.trans (is_colored_iff line settings world.toSurroundings).symm)
  apply ran_of_does world args line settings ⟨_, world.files⟩ read configures
  rw [asked]
  exact .analyze path ⟨filePath path, bytes⟩ found

theorem sample_unstyled (format : Format) : Unstyled (sampleText format false) := by
  have shown : Unstyled (if format = .text then Presenter.sampleSource ++ "\n\n".toList else []) := by
    split
    · decide
    · exact List.not_mem_nil
  exact shown.append (Analysis.write_unstyled format _)

theorem color_off (line : CommandLine) (settings : Settings) (around : Surroundings)
    (off : line.noColor = true ∨ settings.output.color = false) : isColored line settings around = false := by
  rw [isColored]
  rcases off with refused | unwanted
  · rw [refused, Bool.not_true, Bool.and_false, Bool.false_and]
  · rw [unwanted, Bool.false_and, Bool.false_and]

theorem plain_unstyled (world : World) (args : List Text) (line : CommandLine)
    (read : CommandLine.ofArguments args = .ok line)
    (analysis : line.command = .sample ∨ ∃ path, line.command = .analyze path)
    (off : line.noColor = true ∨ ∀ settings, Configures world line settings → settings.output.color = false) :
    Unstyled (ofArguments world args).output := by
  rcases of_arguments_line world args line read with ⟨message, failed⟩ | ⟨settings, after, configures, does, ran⟩
  · rw [failed]
    exact List.not_mem_nil
  · have plain := color_off line settings world.toSurroundings (off.imp_right fun each => each settings configures)
    rw [ran]
    rcases analysis with asked | ⟨path, asked⟩
    · rw [asked] at does
      cases does
      rw [plain]
      exact sample_unstyled _
    · rw [asked] at does
      cases does
      rw [plain]
      exact Analysis.write_unstyled _ _

/-- What a run prints that is asked for an analysis is the analysis of the bytes that it read, in the
format and with the colours that count for it: two runs that agree in these print the same. With colours
off, an analysis and that of the sample are printed without any style. -/
theorem analysis_printed (world : World) (args : List Text) :
    (∀ path, Asks args (.analyze path) → (ofArguments world args).exit = 0 →
        ∃ basis, RestsOn world args basis) ∧
      (∀ basis, RestsOn world args basis →
        (ofArguments world args).exit = 0 ∧ (ofArguments world args).output = basis.printed) ∧
      (∀ other others basis, RestsOn world args basis → RestsOn other others basis →
        (ofArguments world args).output = (ofArguments other others).output) ∧
      ∀ line, CommandLine.ofArguments args = .ok line →
        line.command = .sample ∨ (∃ path, line.command = .analyze path) →
        (line.noColor = true ∨ ∀ settings, Configures world line settings → settings.output.color = false) →
        Unstyled (ofArguments world args).output := by
  refine ⟨rests_of_succeeded world args, ?_, ?_, plain_unstyled world args⟩
  · intro basis rests
    rw [printed_basis world args basis rests]
    exact ⟨rfl, rfl⟩
  · intro other others basis rests restsToo
    rw [printed_basis world args basis rests, printed_basis other others basis restsToo]

-- The same bytes from the standard input, and from a file whose analysis goes to a terminal, with
-- colours forced by one switch and turned off by another.
def pipedWorld : World :=
  { working := [], environment := [], input := lonelySource.bytes, files := .directory [] }

def forcingWorld : World :=
  { lonelyWorld with environment := [("CLICOLOR_FORCE".toList, ['1'])], terminal := true }

def plainArguments : List Text :=
  ["-v".toList, "--no-color".toList, "analyze".toList, ['a']]

theorem piped_configures (line : CommandLine) (unnamed : line.config = none) : Configures pipedWorld line {} :=
  .found {} unnamed (Settings.default_settings [] fun _ member => absurd member List.not_mem_nil)

theorem forcing_configures (line : CommandLine) (unnamed : line.config = none) : Configures forcingWorld line {} :=
  .found {} unnamed
    (Settings.default_settings [("CLICOLOR_FORCE".toList, ['1'])] (List.forall_mem_singleton.mpr (by decide)))

-- Without variables it is for the terminal to show styles.
theorem styles_unshown (around : Surroundings) (bare : around.environment = []) (piped : around.terminal = false) :
    ¬ StylesShown around := by
  rw [StylesShown, bare, piped]
  rintro (⟨v, forced, -⟩ | ⟨-, -, terminal⟩)
  · cases forced
  · cases terminal

theorem piped_rests : RestsOn pipedWorld ["analyze".toList] ⟨lonelySource.bytes, .text, false⟩ := by
  refine .analyze ⟨none, none, false, false, .analyze none⟩ none {} _ false rfl rfl (piped_configures _ rfl) .input ?_
  simp [styles_unshown pipedWorld.toSurroundings rfl rfl]

theorem plain_rests : RestsOn forcingWorld plainArguments ⟨lonelySource.bytes, .text, false⟩ := by
  refine .analyze ⟨none, none, true, true, .analyze (some ['a'])⟩ (some ['a']) {} _ false rfl rfl
    (forcing_configures _ rfl) (.file ['a'] _ rfl rfl) ?_
  simp

-- A format that a flag gives, and the same one from a file, which another flag overrules.
def formatDocument : Text :=
  "[output]\nformat = \"json\"\n".toList

def formatWorld : World :=
  { lonelyWorld with
    files := .directory
      [("bigo.toml".toList, .file (Text.encode formatDocument)), (['a'], .file lonelySource.bytes)] }

def jsonFlagged : List Text :=
  ["--format=json".toList, "analyze".toList]

def markdownFlagged : List Text :=
  ["--format=markdown".toList, "analyze".toList, ['a']]

theorem format_parsed : Toml.parse? formatDocument =
    some [("output".toList, .table [("format".toList, .text "json".toList)])] := by
  cbv

theorem format_configures (line : CommandLine) (unnamed : line.config = none) :
    Configures formatWorld line { output := { format := .json } } := by
  have holds : Settings.Holds formatWorld.files [] "./bigo.toml".toList
      [("output".toList, .table [("format".toList, .text "json".toList)])] :=
    ⟨_, formatDocument, rfl, Text.decode_strict_encode _, format_parsed⟩
  have layer := Settings.layer_of_held formatWorld.files [] _ "bigo.toml".toList _ holds
  have sought : (Settings.fileNames ['.']).filterMap (Settings.soughtLayer formatWorld.files []) =
      [("bigo.toml".toList, Settings.layerOfFile formatWorld.files [] "./bigo.toml".toList "bigo.toml".toList)] := rfl
  refine .found _ unnamed ?_
  change Settings.combine ((Settings.fileNames ['.']).filterMap (Settings.soughtLayer formatWorld.files [])) [] = _
  rw [sought, layer]
  exact Settings.combine_accepts [(_, _)] [] _ rfl

theorem json_flagged_rests : RestsOn pipedWorld jsonFlagged ⟨lonelySource.bytes, .json, false⟩ := by
  refine .analyze ⟨some .json, none, false, false, .analyze none⟩ none {} _ false rfl rfl (piped_configures _ rfl)
    .input ?_
  simp [styles_unshown pipedWorld.toSurroundings rfl rfl]

theorem json_configured_rests :
    RestsOn formatWorld ["analyze".toList, ['a']] ⟨lonelySource.bytes, .json, false⟩ := by
  refine .analyze ⟨none, none, false, false, .analyze (some ['a'])⟩ (some ['a']) _ _ false rfl rfl
    (format_configures _ rfl) (.file ['a'] _ rfl rfl) ?_
  simp [styles_unshown formatWorld.toSurroundings rfl rfl]

theorem markdown_flagged_rests : RestsOn formatWorld markdownFlagged ⟨lonelySource.bytes, .markdown, false⟩ := by
  refine .analyze ⟨some .markdown, none, false, false, .analyze (some ['a'])⟩ (some ['a']) _ _ false rfl rfl
    (format_configures _ rfl) (.file ['a'] _ rfl rfl) ?_
  simp [styles_unshown formatWorld.toSurroundings rfl rfl]

theorem colored_rests : RestsOn forcingWorld ["analyze".toList, ['a']] ⟨lonelySource.bytes, .text, true⟩ := by
  refine .analyze ⟨none, none, false, false, .analyze (some ['a'])⟩ (some ['a']) {} _ true rfl rfl
    (forcing_configures _ rfl) (.file ['a'] _ rfl rfl) ?_
  exact iff_of_true rfl ⟨rfl, rfl, .inl ⟨['1'], rfl, by decide⟩⟩

theorem same_bytes_printed :
    (RestsOn pipedWorld ["analyze".toList] ⟨lonelySource.bytes, .text, false⟩ ∧
        (ofArguments pipedWorld ["analyze".toList]).exit = 0 ∧
        (ofArguments pipedWorld ["analyze".toList]).output = (ofArguments forcingWorld plainArguments).output ∧
        Unstyled (ofArguments forcingWorld plainArguments).output) ∧
      (ofArguments pipedWorld jsonFlagged).output = (ofArguments formatWorld ["analyze".toList, ['a']]).output ∧
      (ofArguments formatWorld ["analyze".toList, ['a']]).output =
        (Analysis.ofSource "g() \x7b \x7d".toList).write .json false ∧
      (ofArguments formatWorld markdownFlagged).output =
        (Analysis.ofSource "g() \x7b \x7d".toList).write .markdown false ∧
      (ofArguments forcingWorld ["analyze".toList, ['a']]).output =
        (Analysis.ofSource "g() \x7b \x7d".toList).write .text true := by
  have piped := analysis_printed pipedWorld ["analyze".toList]
  have plain := analysis_printed forcingWorld plainArguments
  have json := analysis_printed pipedWorld jsonFlagged
  have configured := analysis_printed formatWorld ["analyze".toList, ['a']]
  have markdown := analysis_printed formatWorld markdownFlagged
  have colored := analysis_printed forcingWorld ["analyze".toList, ['a']]
  refine ⟨⟨piped_rests, (piped.2.1 _ piped_rests).1, piped.2.2.1 forcingWorld plainArguments _ piped_rests plain_rests,
    plain.2.2.2 ⟨none, none, true, true, .analyze (some ['a'])⟩ rfl (.inr ⟨_, rfl⟩) (.inl rfl)⟩, ?_, ?_, ?_, ?_⟩
  · exact json.2.2.1 formatWorld _ _ json_flagged_rests json_configured_rests
  · exact (configured.2.1 _ json_configured_rests).2
  · exact (markdown.2.1 _ markdown_flagged_rests).2
  · exact (colored.2.1 _ colored_rests).2

end OrderOfGrowth.Run
