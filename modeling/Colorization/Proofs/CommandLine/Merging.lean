import Colorization.Proofs.CommandLine.Colorizing

/-! What a command line makes of the settings. It is told value by value, so that merging once more
has nothing left to change. -/
namespace Colorization.CommandLine

namespace Arguments

/-- The work is to put the tokens of a file where the file itself is. -/
def OverwritesSource (arguments : Arguments) : Prop :=
  ∃ file output, arguments.command = .colorize file output ∧
    (output.getD file.colorized).components = file.components

/-- The settings with what was given in the place of what was configured. -/
structure Merged (arguments : Arguments) (settings merged : Config) : Prop where
  fixturesDir : merged.fixturesDir = settings.fixturesDir
  resultsDir : merged.resultsDir = settings.resultsDir
  exportsDir : merged.exportsDir = settings.exportsDir
  fixtureExtensions : merged.fixtureExtensions = settings.fixtureExtensions
  themes_given : arguments.themes ≠ [] → merged.themes = arguments.themes
  themes_kept : arguments.themes = [] → merged.themes = settings.themes
  format_given : arguments.compact = true → merged.format = .compact
  format_kept : arguments.compact = false → merged.format = settings.format
  /-- The arguments configured for one program are none for another. -/
  tokenizer_given : ∀ program, arguments.tokenizer = some program →
    merged.tokenizer = ⟨some program, arguments.tokenizerArgs⟩
  program_kept : arguments.tokenizer = none → merged.tokenizer.program = settings.tokenizer.program
  args_given : arguments.tokenizer = none → arguments.tokenizerArgs ≠ [] →
    merged.tokenizer.args = arguments.tokenizerArgs
  args_kept : arguments.tokenizer = none → arguments.tokenizerArgs = [] →
    merged.tokenizer.args = settings.tokenizer.args

/-- What a command works on: the paths it was given, and the configured directories in the place of
those it was not. -/
inductive Asks (settings : Config) : Command → Task → Prop where
  | colorize (file : Path) (output : Option Path) :
      Asks settings (.colorize file output) (.colorize file (output.getD file.colorized))
  | batch (files : List Path) (outDir : Path) : Asks settings (.batch files outDir) (.batch files outDir)
  | fixtures (outDir : Option Path) : Asks settings (.fixtures outDir)
      (.fixtures settings.fixturesDir (outDir.getD settings.resultsDir))
  | compare (baseline source : Path) (update json : Bool) :
      Asks settings (.compare baseline source update json) (.compare baseline source update json)
  | test : Asks settings (.test false) (.suite settings.fixturesDir settings.resultsDir .check)
  | testExport : Asks settings (.test true) (.suite settings.fixturesDir settings.resultsDir .export)
  | exports (outDir : Option Path) : Asks settings (.export outDir)
      (.suite settings.fixturesDir (outDir.getD settings.exportsDir) .export)
  | config : Asks settings .config .showConfig

variable {arguments : Arguments} {settings merged other : Config} {task : Task}

theorem Merged.unique (first : arguments.Merged settings merged) (second : arguments.Merged settings other) :
    merged = other := by
  have themes : merged.themes = other.themes := by
    by_cases given : arguments.themes = []
    · exact (first.themes_kept given).trans (second.themes_kept given).symm
    · exact (first.themes_given given).trans (second.themes_given given).symm
  have format : merged.format = other.format := by
    by_cases given : arguments.compact = true
    · exact (first.format_given given).trans (second.format_given given).symm
    · rw [Bool.not_eq_true] at given
      exact (first.format_kept given).trans (second.format_kept given).symm
  have tokenizer : merged.tokenizer = other.tokenizer := by
    cases given : arguments.tokenizer with
    | some program => exact (first.tokenizer_given program given).trans (second.tokenizer_given program given).symm
    | none =>
      have program := (first.program_kept given).trans (second.program_kept given).symm
      have args : merged.tokenizer.args = other.tokenizer.args := by
        by_cases some : arguments.tokenizerArgs = []
        · exact (first.args_kept given some).trans (second.args_kept given some).symm
        · exact (first.args_given given some).trans (second.args_given given some).symm
      cases first' : merged.tokenizer
      cases second' : other.tokenizer
      simp_all
  have fixturesDir := first.fixturesDir.trans second.fixturesDir.symm
  have resultsDir := first.resultsDir.trans second.resultsDir.symm
  have exportsDir := first.exportsDir.trans second.exportsDir.symm
  have extensions := first.fixtureExtensions.trans second.fixtureExtensions.symm
  cases merged
  cases other
  simp_all

/-- What has been merged has every value that was given already. -/
theorem Merged.again (once : arguments.Merged settings merged) : arguments.Merged merged merged where
  fixturesDir := rfl
  resultsDir := rfl
  exportsDir := rfl
  fixtureExtensions := rfl
  themes_given := once.themes_given
  themes_kept := fun _ => rfl
  format_given := once.format_given
  format_kept := fun _ => rfl
  tokenizer_given := once.tokenizer_given
  program_kept := fun _ => rfl
  args_given := once.args_given
  args_kept := fun _ _ => rfl

theorem Merged.lacksProgram_iff (once : arguments.Merged settings merged) :
    arguments.LacksProgram merged ↔ arguments.LacksProgram settings := by
  unfold LacksProgram
  by_cases given : arguments.tokenizer = none
  · rw [once.program_kept given]
  · simp [given]

theorem merged_of_override (overridden : arguments.override settings = .ok merged) :
    arguments.Merged settings merged := by
  obtain ⟨tokenizer, chosen, result⟩ := bind_eq_ok_iff.mp overridden
  obtain rfl := Except.ok.inj result
  unfold tokenizerCommand at chosen
  cases named : arguments.tokenizer with
  | some program =>
    simp only [named, Except.ok.injEq] at chosen
    constructor <;> simp_all
  | none =>
    by_cases given : arguments.tokenizerArgs = []
    · simp only [named, given, List.isEmpty_nil, if_true, Except.ok.injEq] at chosen
      constructor <;> simp_all
    · have some : arguments.tokenizerArgs.isEmpty = false := by simpa using given
      cases configured : settings.tokenizer.program with
      | none => simp [named, some, configured] at chosen
      | some program =>
        simp only [named, some, configured, Option.isNone_some, Bool.false_eq_true, if_false,
          Except.ok.injEq] at chosen
        subst chosen
        constructor <;> simp_all

theorem override_eq_ok_iff : arguments.override settings = .ok merged ↔
    ¬ arguments.LacksProgram settings ∧ arguments.Merged settings merged := by
  constructor
  · intro overridden
    refine ⟨fun lacks => ?_, merged_of_override overridden⟩
    exact nomatch overridden.symm.trans (override_eq_error_iff.mpr ⟨lacks, rfl⟩)
  · rintro ⟨hasProgram, isMerged⟩
    cases overridden : arguments.override settings with
    | error error => exact absurd (override_eq_error_iff.mp overridden).1 hasProgram
    | ok result => rw [(merged_of_override overridden).unique isMerged]

/-- Only an output in the place of its source is no task. -/
theorem task_eq_ok_iff {command : Command} : Arguments.task settings command = .ok task ↔
    Asks settings command task ∧ ∀ file output, command = .colorize file output →
      (output.getD file.colorized).components ≠ file.components := by
  constructor
  · intro isTask
    cases command with
    | colorize file output =>
      simp only [Arguments.task] at isTask
      split at isTask
      · cases isTask
      next apart =>
        cases isTask
        refine ⟨.colorize file output, ?_⟩
        rintro _ _ ⟨⟩
        simpa [Path.same] using apart
    | test exporting => cases exporting <;> cases isTask <;> exact ⟨by constructor, by rintro _ _ ⟨⟩⟩
    | _ => cases isTask; exact ⟨by constructor, by rintro _ _ ⟨⟩⟩
  · rintro ⟨asks, apart⟩
    cases asks with
    | colorize file output =>
      have different : (output.getD file.colorized).same file = false := by
        simpa [Path.same] using apart file output rfl
      simp [Arguments.task, different]
    | _ => rfl

theorem Asks.of_directories {command : Command} (fixturesDir : other.fixturesDir = settings.fixturesDir)
    (resultsDir : other.resultsDir = settings.resultsDir) (exportsDir : other.exportsDir = settings.exportsDir)
    (asks : Asks settings command task) : Asks other command task := by
  cases asks with
  | fixtures outDir =>
    rw [← fixturesDir, ← resultsDir]
    exact .fixtures outDir
  | test =>
    rw [← fixturesDir, ← resultsDir]
    exact .test
  | testExport =>
    rw [← fixturesDir, ← resultsDir]
    exact .testExport
  | exports outDir =>
    rw [← fixturesDir, ← exportsDir]
    exact .exports outDir
  | _ => constructor

theorem exists_asks (settings : Config) (command : Command) : ∃ task, Asks settings command task := by
  cases command with
  | test exporting => cases exporting <;> exact ⟨_, by constructor⟩
  | _ => exact ⟨_, by constructor⟩

theorem Merged.asks_iff (once : arguments.Merged settings merged) {command : Command} :
    Asks merged command task ↔ Asks settings command task :=
  ⟨.of_directories once.fixturesDir.symm once.resultsDir.symm once.exportsDir.symm,
    .of_directories once.fixturesDir once.resultsDir once.exportsDir⟩

theorem resolve_eq_ok_iff : arguments.resolve settings = .ok (task, merged) ↔
    ¬ arguments.LacksProgram settings ∧ ¬ arguments.OverwritesSource ∧ arguments.Merged settings merged ∧
      Asks settings arguments.command task := by
  have parts : arguments.resolve settings = .ok (task, merged) ↔
      arguments.override settings = .ok merged ∧ Arguments.task merged arguments.command = .ok task := by
    simp [resolve, bind_eq_ok_iff, pure, Except.pure]
  rw [parts, override_eq_ok_iff, task_eq_ok_iff]
  constructor
  · rintro ⟨⟨hasProgram, isMerged⟩, asks, apart⟩
    refine ⟨hasProgram, ?_, isMerged, isMerged.asks_iff.mp asks⟩
    rintro ⟨file, output, isColorize, alike⟩
    exact apart file output isColorize alike
  · rintro ⟨hasProgram, apart, isMerged, asks⟩
    refine ⟨⟨hasProgram, isMerged⟩, isMerged.asks_iff.mpr asks, fun file output isColorize alike => ?_⟩
    exact apart ⟨file, output, isColorize, alike⟩

/-- Nothing else is in the way of a task. -/
theorem exists_resolve (hasProgram : ¬ arguments.LacksProgram settings)
    (apart : ¬ arguments.OverwritesSource) :
    ∃ task merged, arguments.resolve settings = .ok (task, merged) := by
  cases overridden : arguments.override settings with
  | error error => exact absurd (override_eq_error_iff.mp overridden).1 hasProgram
  | ok merged =>
    obtain ⟨task, asks⟩ := exists_asks settings arguments.command
    exact ⟨task, merged, resolve_eq_ok_iff.mpr ⟨hasProgram, apart, merged_of_override overridden, asks⟩⟩

/-- A command line and the settings are merged as they should be, and merging them once more gives the
same. -/
theorem resolve_merges (arguments : Arguments) (settings : Config) :
    ((∃ error, arguments.resolve settings = .error error) ↔
      arguments.LacksProgram settings ∨ arguments.OverwritesSource) ∧
    (∀ task merged, arguments.resolve settings = .ok (task, merged) ↔
      ¬ arguments.LacksProgram settings ∧ ¬ arguments.OverwritesSource ∧ arguments.Merged settings merged ∧
        Asks settings arguments.command task) ∧
    (arguments.resolve settings >>= fun result => arguments.resolve result.2) =
      arguments.resolve settings := by
  refine ⟨⟨?refused, ?faulty⟩, fun task merged => resolve_eq_ok_iff, ?again⟩
  case refused =>
    rintro ⟨error, refused⟩
    by_contra sound
    rw [not_or] at sound
    obtain ⟨task, merged, resolved⟩ := exists_resolve sound.1 sound.2
    cases refused.symm.trans resolved
  case faulty =>
    intro faulty
    cases resolved : arguments.resolve settings with
    | error error => exact ⟨error, rfl⟩
    | ok result =>
      obtain ⟨hasProgram, apart, -⟩ := resolve_eq_ok_iff.mp resolved
      exact (faulty.elim hasProgram apart).elim
  case again =>
    cases resolved : arguments.resolve settings with
    | error error => rfl
    | ok result =>
      obtain ⟨hasProgram, apart, once, asks⟩ := resolve_eq_ok_iff.mp resolved
      have stillProgram : ¬ arguments.LacksProgram result.2 := once.lacksProgram_iff.not.mpr hasProgram
      exact resolve_eq_ok_iff.mpr ⟨stillProgram, apart, once.again, once.asks_iff.mpr asks⟩

end Arguments

end Colorization.CommandLine
