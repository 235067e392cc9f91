import Colorization.Proofs.FileSystem.Lexical
import Colorization.Proofs.Path.Colorized
import Colorization.Proofs.Path.Order
import Colorization.Proofs.Snapshot.Certificate
import Colorization.Proofs.Token.Atomic

/-! What a `colorize` line comes to. Its output is told from its source by the components of the two
paths, so another spelling of the source passes; the work then replaces the source. -/
namespace Colorization

open Colorization.Action (Returns Fails)

variable {host : Host} {before after : World} {file output : Path}

namespace CommandLine.Arguments

variable {arguments : Arguments} {settings config : Config}

/-- Arguments for a tokenizer are given, and there is no program to take them. -/
def LacksProgram (arguments : Arguments) (settings : Config) : Prop :=
  arguments.tokenizer = none ∧ arguments.tokenizerArgs ≠ [] ∧ settings.tokenizer.program = none

theorem override_eq_error_iff :
    arguments.override settings = .error error ↔
      arguments.LacksProgram settings ∧ error = .argsWithoutProgram := by
  have whole : arguments.override settings = .error error ↔
      arguments.tokenizerCommand settings.tokenizer = .error error := by
    unfold override
    cases arguments.tokenizerCommand settings.tokenizer <;> simp [bind, Except.bind, pure, Except.pure]
  rw [whole, tokenizerCommand, LacksProgram]
  cases arguments.tokenizer <;> cases arguments.tokenizerArgs <;>
    cases settings.tokenizer.program <;> simp [eq_comm]

/-- A `colorize` line is judged by its settings first, then by its output. -/
theorem resolve_colorize (isColorize : arguments.command = .colorize file asked) :
    arguments.resolve settings = (arguments.override settings).bind fun config =>
      if (asked.getD file.colorized).same file then .error (.overwritesSource (asked.getD file.colorized))
      else .ok (.colorize file (asked.getD file.colorized), config) := by
  unfold resolve
  rw [isColorize]
  cases arguments.override settings with
  | error => rfl
  | ok config =>
    by_cases alike : (asked.getD file.colorized).same file = true <;>
      simp [Arguments.task, bind, Except.bind, pure, Except.pure, alike]

/-- The output of a task is not the source by its components. -/
theorem same_of_resolve (resolved : arguments.resolve settings = .ok (.colorize file output, config)) :
    output.same file = false := by
  cases isCommand : arguments.command with
  | colorize file' asked =>
    rw [resolve_colorize isCommand] at resolved
    cases overridden : arguments.override settings with
    | error => simp [overridden, Except.bind] at resolved
    | ok config' =>
      simp only [overridden, Except.bind] at resolved
      split at resolved
      · cases resolved
      next apart =>
        cases resolved
        exact Bool.eq_false_iff.mpr apart
  | _ =>
    unfold resolve at resolved
    cases overridden : arguments.override settings <;>
      simp [overridden, bind, Except.bind, pure, Except.pure, isCommand, task] at resolved

end CommandLine.Arguments

namespace FileSystem

variable {before after : FileSystem} {path : Path} {place stop start : Location} {segments : List Segment}
  {content content' : Content}

/-- A way to a regular file leads to whatever regular file is there in its stead. -/
theorem Leads.of_firm_file (firm : Firm before after) (there : after.node? stop = some (.file mode' content'))
    (leads : Leads before used start segments stop node) (isFile : node = .file mode content) :
    Leads after used start segments stop (.file mode' content') := by
  induction leads with
  | here _ => exact .here there
  | stay inside blank _ ih => exact .stay (firm.directory _ _ inside) blank (ih there isFile)
  | up inside _ ih => exact .up (firm.directory _ _ inside) (ih there isFile)
  | down inside named entry notLink next ih =>
    have onward := ih there isFile
    cases next with
    | here => exact .down (firm.directory _ _ inside) named there nofun onward
    | stay folder | up folder | down folder | follow folder =>
      exact .down (firm.directory _ _ inside) named (firm.directory _ _ folder) nofun onward
  | follow inside named entry _ ih =>
    exact .follow (firm.directory _ _ inside) named (firm.link _ _ entry) (ih there isFile)

theorem find_file_of_firm (firm : Firm before after) (found : before.find path = .ok (stop, .file mode content))
    (there : after.node? stop = some (.file mode' content')) :
    after.find path = .ok (stop, .file mode' content') := by
  obtain ⟨checked, used, bound, leads⟩ := find_eq_ok_iff.mp found
  rw [← start_of_working firm.working] at leads
  exact find_eq_ok_iff.mpr ⟨checked, used, bound, leads.of_firm_file firm there rfl⟩

theorem firm_prepared (files : FileSystem) (path : Path) : Firm files (files.prepared path) :=
  (grows_makeDirectories files path.directory).extends.firm

/-- Where there are no links only a regular file can be replaced. -/
theorem ReplacedBy.firm {bytes : ByteArray} (replaced : ReplacedBy before after path mode bytes)
    (linkFree : before.LinkFree) : Firm before after := by
  obtain ⟨place, -, notFolder, rfl⟩ := replaced
  have same := sameBut_set before place (.file mode (.ofBytes bytes))
  refine ⟨fun location mode' isFolder => ?_, fun location target isLink => absurd isLink (linkFree _ _), same.working⟩
  by_cases here : location = place
  · exact absurd (here ▸ isFolder) (notFolder mode')
  · rw [same.node _ here, isFolder]

end FileSystem

/-- How the work for one file ends, and what it has done to the files. -/
inductive Colorizes (colorizer : Colorizer) (host : Host) (before : World) (file output : Path) (after : World) :
    Option (Except Trouble Bool) → Prop where
  | failed : after.files = before.files ∨ after.files = before.files.prepared output →
      result ≠ some (.ok true) → Colorizes colorizer host before file output after result
  | saved : colorizer.Captures host before.files file capture →
      (before.files.prepared output).ReplacedBy after.files output mode
        (capture.serialize colorizer.format).toUTF8 →
      Colorizes colorizer host before file output after (some (.ok true))

theorem colorizes_of_ends {colorizer : Colorizer} {extensions : List String}
    (ends : (colorizer.carryOut extensions (.colorize file output)).run.Ends host before result after) :
    Colorizes colorizer host before file output after result := by
  rcases Errand.ends_during_bind_iff.mp ends with ⟨failure, fails, rfl⟩ | ⟨capture, middle, returned, onward⟩
  · refine .failed ?_ (by cases failure <;> simp)
    rcases Action.fails_bind.mp fails with fails | ⟨capture, taken, captured, fails⟩
    · exact .inl (Action.files_of_fails (colorizer.still_capture file) fails)
    · have unchanged := (Colorizer.captures_of_capture captured).2
      rcases Action.fails_bind.mp fails with fails | ⟨⟨⟩, saved, -, fails⟩
      · exact unchanged ▸ Capture.files_of_failed_save fails
      · exact absurd fails Action.not_fails_pure
  · unfold Errand.printLine at onward
    have onward := (Errand.ends_perform_bind_iff rfl).mp onward
    obtain ⟨rfl, rfl⟩ := Program.ends_done_iff.mp onward
    obtain ⟨capture', taken, captured, rest⟩ := Action.returns_bind.mp returned
    obtain ⟨⟨⟩, saved, save, rest⟩ := Action.returns_bind.mp rest
    obtain ⟨rfl, rfl⟩ := Action.returns_pure.mp rest
    obtain ⟨captures, unchanged⟩ := Colorizer.captures_of_capture captured
    exact .saved captures (unchanged ▸ Capture.replacedBy_of_save save)

/-- The source stays as it is where the output is another location; at its own location, which no guard
sees in another spelling, it is replaced by what it was read for. -/
theorem colorize_keeps_source_elsewhere {arguments : CommandLine.Arguments} {settings config : Config}
    {colorizer : Colorizer} {extensions : List String}
    (resolved : arguments.resolve settings = .ok (.colorize file output, config))
    (linkFree : before.files.LinkFree)
    (found : before.files.find file = .ok (location, .file mode content))
    (ends : (colorizer.carryOut extensions (.colorize file output)).run.Ends host before result after) :
    output.same file = false ∧
    (output.location before.files.working ≠ location →
      after.files.find file = .ok (location, .file mode content)) ∧
    (output.location before.files.working = location → result = some (.ok true) →
      ∃ capture mode', colorizer.Captures host before.files file capture ∧ after.files.find file =
        .ok (location, .file mode' (.ofBytes (capture.serialize colorizer.format).toUTF8))) := by
  obtain ⟨-, _, -, leads⟩ := FileSystem.find_eq_ok_iff.mp found
  have grows := FileSystem.grows_makeDirectories before.files output.directory
  have makes := FileSystem.firm_prepared before.files output
  have made := (grows.fileKept location mode content).mpr leads.found
  refine ⟨CommandLine.Arguments.same_of_resolve resolved, fun elsewhere => ?_, ?_⟩
  · rcases colorizes_of_ends ends with ⟨same | same, -⟩ | ⟨captures, replaced⟩
    · rw [same, found]
    · rw [same]
      exact FileSystem.find_of_firm makes found made
    · obtain ⟨place, rewritten⟩ := replaced.rewritten
      have isPlace := linkFree.location_of_enters ⟨_, grows, rewritten.entered⟩
      have kept := (rewritten.others location fun same => elsewhere (same ▸ isPlace.symm)) mode content
      exact FileSystem.find_of_firm (makes.trans (replaced.firm (grows.linkFree linkFree))) found
        (kept.mpr leads.found)
  · rintro here rfl
    rcases colorizes_of_ends ends with ⟨-, unfinished⟩ | ⟨captures, replaced⟩
    · exact absurd rfl unfinished
    · obtain ⟨place, rewritten⟩ := replaced.rewritten
      have isPlace := linkFree.location_of_enters ⟨_, grows, rewritten.entered⟩
      have there := rewritten.there
      rw [isPlace, here] at there
      exact ⟨_, _, captures, FileSystem.find_file_of_firm
        (makes.trans (replaced.firm (grows.linkFree linkFree))) found there⟩

/-- A source that is kept in a layout of its own. -/
def spaced : FileSystem where
  nodes := [(["a.json"], .file 0o644 (.ofText "[ ]"))]
  working := []

theorem linkFree_spaced : spaced.LinkFree := FileSystem.linkFree_of_nodes rfl

theorem exists_colorized (file output : Path) (before : World) (test : FileSystem → Bool)
    (passes : Action.returnsWith .printing ((printingConfig.colorizer "cat").captureToFile file output) before
      (fun _ after => test after.files) = true) :
    ∃ after, ((printingConfig.colorizer "cat").carryOut printingConfig.fixtureExtensions
      (.colorize file output)).run.Ends .printing before (some (.ok true)) after ∧ test after.files = true := by
  obtain ⟨tokens, after, returned, passed⟩ := Action.returns_of_returnsWith passes
  have done : ((printingConfig.colorizer "cat").carryOut printingConfig.fixtureExtensions
      (.colorize file output)).run.Ends .printing before (some (.ok true)) _ :=
    Errand.ends_during_bind_iff.mpr
      (.inr ⟨tokens, after, returned, (Errand.ends_perform_bind_iff rfl).mpr .done⟩)
  exact ⟨_, done, passed⟩

theorem colorize_keeps_source_of_default : ∃ after, ((printingConfig.colorizer "cat").carryOut
      printingConfig.fixtureExtensions (.colorize ⟨"a.json"⟩ ⟨"a_colorized.json"⟩)).run.Ends .printing
      (.start spaced) (some (.ok true)) after ∧
    after.files.find ⟨"a.json"⟩ = .ok (["a.json"], .file 0o644 (.ofText "[ ]")) := by
  obtain ⟨after, ends, -⟩ := exists_colorized ⟨"a.json"⟩ ⟨"a_colorized.json"⟩ (.start spaced) (fun _ => true)
    (by decide +kernel)
  have resolved : (⟨none, none, [], [], false, false, .colorize ⟨"a.json"⟩ none⟩ :
      CommandLine.Arguments).resolve printingConfig =
        .ok (.colorize ⟨"a.json"⟩ ⟨"a_colorized.json"⟩, printingConfig) := rfl
  have kept := (colorize_keeps_source_elsewhere resolved linkFree_spaced rfl ends).2.1
  exact ⟨after, ends, kept (by decide)⟩

/-- The source is written with `./` as the output, and is not what it was after the run. -/
theorem colorize_replaces_source : spaced.LinkFree ∧
    (⟨"./a.json"⟩ : Path).location spaced.working = (⟨"a.json"⟩ : Path).location spaced.working ∧
    ∃ after, (CommandLine.run ⟨none, none⟩ ["colorize", "a.json", "-o", "./a.json", "--tokenizer", "cat"]).Ends
        .printing (.start spaced) (some 0) after ∧
      after.files.read ⟨"a.json"⟩ ≠ spaced.read ⟨"a.json"⟩ := by
  have asks : CommandLine.Asks ⟨none, none⟩ ["colorize", "a.json", "-o", "./a.json", "--tokenizer", "cat"]
      .printing (.start spaced) (.colorize ⟨"a.json"⟩ ⟨"./a.json"⟩) printingConfig "cat" (readied spaced) :=
    asks_of_read 0 rfl rfl rfl rfl nofun
  obtain ⟨after, ends, changed⟩ := exists_colorized ⟨"a.json"⟩ ⟨"./a.json"⟩ (readied spaced)
    (fun files => files.read ⟨"a.json"⟩ ≠ spaced.read ⟨"a.json"⟩) (by decide +kernel)
  exact ⟨linkFree_spaced, rfl, _, (CommandLine.ends_iff_of_asks asks).mpr ⟨_, after, ends, rfl, rfl⟩,
    of_decide_eq_true changed⟩

end Colorization
