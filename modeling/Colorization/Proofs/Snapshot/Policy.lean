import Colorization.Proofs.Colorizer
import Colorization.Proofs.Comparison.Classification
import Colorization.Proofs.Token.File
import Colorization.Snapshot

/-! What the outcome of a run tells: how the baseline was before, and what is in its place
afterwards. -/
namespace Colorization

open Colorization.Action (Returns)

/-- No request breaks down as if nothing were there. -/
def Host.Truthful (host : Host) : Prop :=
  ∀ n breakdown, host.breakdown? n = some breakdown → breakdown.error ≠ .noEntry

namespace SnapshotRunner

/-- The outcomes of a check, and what is done to the files with each. -/
inductive Checked (before after : FileSystem) (baseline : Path) (format : Format)
    (current : Capture) : Outcome → Prop where
  | created : before.stat baseline = .error .noEntry →
      (before.prepared baseline).Replaced after baseline (current.serialize format).toUTF8 →
      Checked before after baseline format current .created
  | passed : before.Holds baseline current → after = before →
      Checked before after baseline format current .passed
  | updatedPass : before.Holds baseline former → former ≠ current → former.Admits current →
      (before.prepared baseline).Replaced after baseline (current.serialize format).toUTF8 →
      Checked before after baseline format current (.updatedPass (former.compare current))
  | updatedFail : before.Holds baseline former → ¬ former.Admits current →
      (before.prepared baseline).Replaced after baseline (current.serialize format).toUTF8 →
      Checked before after baseline format current (.updatedFail (former.compare current))

variable {host : Host} {before after : World} {runner : SnapshotRunner} {fixture : Path}
  {current : Capture} {outcome : Outcome}

theorem isThere_of_returns (returned : Returns host (isThere path) before there after) :
    after.files = before.files ∧
      (host.Truthful → there = false → before.files.stat path = .error .noEntry) := by
  obtain ⟨answer, looked, asked, rest⟩ := Action.returns_bind.mp returned
  have asked : before.look host (fun files => files.stat path) = (answer, looked) :=
    (Action.returns_request (.stat path)).mp asked
  have unchanged := World.files_of_look asked
  split at rest
  · obtain ⟨rfl, rfl⟩ := Action.returns_pure.mp rest
    exact ⟨unchanged, nofun⟩
  · obtain ⟨rfl, rfl⟩ := Action.returns_pure.mp rest
    refine ⟨unchanged, fun truthful _ => ?_⟩
    unfold World.look at asked
    split at asked
    next breakdown broken =>
      have missing : breakdown.error = .noEntry := by simpa using congrArg Prod.fst asked
      exact absurd missing (truthful _ _ broken)
    next => exact congrArg Prod.fst asked
  · exact absurd rest (Action.not_returns_throw _)

theorem replaced_of_write (returned : Returns host (runner.write current baseline event) before () after) :
    (before.files.prepared baseline).Replaced after.files baseline
      (current.serialize runner.colorizer.format).toUTF8 := by
  obtain ⟨⟨⟩, saved, save, told⟩ := Action.returns_bind.mp returned
  rw [Action.files_of_tell told]
  exact Capture.replaced_of_save save

theorem checked_of_settle (held : before.files.Holds (runner.baselineOf fixture) former)
    (returned : Returns host (runner.settle fixture former current) before outcome after) :
    Checked before.files after.files (runner.baselineOf fixture) runner.colorizer.format current
      outcome := by
  unfold settle at returned
  cases classified : former.classify current
  all_goals
    simp only [classified] at returned
    obtain ⟨⟨⟩, told, announced, rest⟩ := Action.returns_bind.mp returned
    rw [← Action.files_of_tell announced] at held ⊢
  case identical =>
    obtain ⟨rfl, rfl⟩ := Action.returns_pure.mp rest
    have same := (Capture.classify_eq_identical_iff _ _).mp classified
    exact .passed (same ▸ held) rfl
  case cosmetic =>
    obtain ⟨⟨⟩, written, write, rest⟩ := Action.returns_bind.mp rest
    obtain ⟨rfl, rfl⟩ := Action.returns_pure.mp rest
    obtain ⟨differs, admits⟩ := (Capture.classify_eq_cosmetic_iff _ _).mp classified
    exact .updatedPass held differs admits (replaced_of_write write)
  case material =>
    obtain ⟨⟨⟩, written, write, rest⟩ := Action.returns_bind.mp rest
    obtain ⟨rfl, rfl⟩ := Action.returns_pure.mp rest
    have refused := (Capture.classify_eq_material_iff _ _).mp classified
    exact .updatedFail held refused (replaced_of_write write)

/-- Only an outcome that tells of an absence rests on what the host answers. -/
theorem checked_of_check (truthful : outcome = .created → host.Truthful)
    (returned : Returns host (runner.check fixture current) before outcome after) :
    Checked before.files after.files (runner.baselineOf fixture) runner.colorizer.format current
      outcome := by
  obtain ⟨there, looked, asked, rest⟩ := Action.returns_bind.mp returned
  obtain ⟨unchanged, missing⟩ := isThere_of_returns asked
  rw [← unchanged] at missing ⊢
  cases there with
  | true =>
    obtain ⟨former, loaded, load, settled⟩ := Action.returns_bind.mp rest
    obtain ⟨-, held, rfl⟩ := Capture.returns_load.mp load
    have held : looked.tick.files.Holds (runner.baselineOf fixture) former := held
    have checked := checked_of_settle held settled
    exact checked
  | false =>
    obtain ⟨⟨⟩, written, write, rest⟩ := Action.returns_bind.mp rest
    obtain ⟨rfl, rfl⟩ := Action.returns_pure.mp rest
    exact .created (missing (truthful rfl) rfl) (replaced_of_write write)

theorem checked_of_run (truthful : outcome = .created → host.Truthful)
    (returned : Returns host (runner.run .check fixture) before outcome after) :
    ∃ current, runner.colorizer.Captures host before.files fixture current ∧
      Checked before.files after.files (runner.baselineOf fixture) runner.colorizer.format current
        outcome := by
  obtain ⟨current, captured, capture, rest⟩ := Action.returns_bind.mp returned
  obtain ⟨captures, unchanged⟩ := Colorizer.captures_of_capture capture
  exact ⟨current, captures, unchanged ▸ checked_of_check truthful rest⟩

theorem exported_of_run
    (returned : Returns host (runner.run .export fixture) before outcome after) :
    ∃ current, runner.colorizer.Captures host before.files fixture current ∧ outcome = .exported ∧
      (before.files.prepared (runner.baselineOf fixture)).Replaced after.files
        (runner.baselineOf fixture) (current.serialize runner.colorizer.format).toUTF8 := by
  obtain ⟨current, captured, capture, rest⟩ := Action.returns_bind.mp returned
  obtain ⟨captures, unchanged⟩ := Colorizer.captures_of_capture capture
  obtain ⟨⟨⟩, written, write, rest⟩ := Action.returns_bind.mp rest
  obtain ⟨rfl, rfl⟩ := Action.returns_pure.mp rest
  exact ⟨current, captures, rfl, unchanged ▸ replaced_of_write write⟩

namespace Checked

variable {before after : FileSystem} {baseline : Path} {format : Format}

/-- Where a baseline was there it was read, and its tokens decide. -/
theorem of_holds (checked : Checked before after baseline format current outcome)
    (held : before.Holds baseline former) :
    (former = current ∧ outcome = .passed) ∨
    (former ≠ current ∧ former.Admits current ∧ outcome = .updatedPass (former.compare current)) ∨
    (¬ former.Admits current ∧ outcome = .updatedFail (former.compare current)) := by
  cases checked with
  | created missing =>
    obtain ⟨stat, there⟩ := FileSystem.stat_of_holds held
    cases there.symm.trans missing
  | passed held' => exact .inl ⟨held.unique held', rfl⟩
  | updatedPass held' differs admits =>
    cases held.unique held'
    exact .inr (.inl ⟨differs, admits, rfl⟩)
  | updatedFail held' refused =>
    cases held.unique held'
    exact .inr (.inr ⟨refused, rfl⟩)

theorem created_iff (checked : Checked before after baseline format current outcome) :
    outcome = .created ↔ before.stat baseline = .error .noEntry := by
  constructor
  · rintro rfl
    cases checked with
    | created missing => exact missing
  · intro missing
    have absent : ∀ former, ¬ before.Holds baseline former := by
      intro former held
      obtain ⟨stat, there⟩ := FileSystem.stat_of_holds held
      cases there.symm.trans missing
    cases checked with
    | created => rfl
    | passed held | updatedPass held | updatedFail held => exact absurd held (absent _)

theorem passed_iff (checked : Checked before after baseline format current outcome) :
    outcome = .passed ↔ before.Holds baseline current := by
  constructor
  · rintro rfl
    cases checked with
    | passed held => exact held
  · intro held
    rcases checked.of_holds held with ⟨-, rfl⟩ | ⟨differs, -⟩ | ⟨refused, -⟩
    · rfl
    · exact absurd rfl differs
    · exact absurd (.refl current) refused

theorem updatedPass_iff (checked : Checked before after baseline format current outcome) :
    (∃ comparison, outcome = .updatedPass comparison) ↔
      ∃ former, before.Holds baseline former ∧ former ≠ current ∧ former.Admits current := by
  constructor
  · rintro ⟨comparison, rfl⟩
    cases checked with
    | updatedPass held differs admits => exact ⟨_, held, differs, admits⟩
  · rintro ⟨former, held, differs, admits⟩
    rcases checked.of_holds held with ⟨same, -⟩ | ⟨-, -, rfl⟩ | ⟨refused, -⟩
    · exact absurd same differs
    · exact ⟨_, rfl⟩
    · exact absurd admits refused

theorem updatedFail_iff (checked : Checked before after baseline format current outcome) :
    (∃ comparison, outcome = .updatedFail comparison) ↔
      ∃ former, before.Holds baseline former ∧ ¬ former.Admits current := by
  constructor
  · rintro ⟨comparison, rfl⟩
    cases checked with
    | updatedFail held refused => exact ⟨_, held, refused⟩
  · rintro ⟨former, held, refused⟩
    rcases checked.of_holds held with ⟨rfl, -⟩ | ⟨-, admits, -⟩ | ⟨-, rfl⟩
    · exact absurd (.refl _) refused
    · exact absurd admits refused
    · exact ⟨_, rfl⟩

theorem carried (checked : Checked before after baseline format current outcome)
    (carries : outcome.comparison? = some comparison) :
    ∃ former, before.Holds baseline former ∧ comparison = former.compare current := by
  cases checked with
  | created | passed => cases carries
  | updatedPass held | updatedFail held =>
    cases carries
    exact ⟨_, held, rfl⟩

theorem untouched (checked : Checked before after baseline format current .passed) :
    after = before := by
  cases checked with
  | passed _ same => exact same

theorem written (checked : Checked before after baseline format current outcome)
    (changed : outcome ≠ .passed) : (before.prepared baseline).Replaced after baseline
      (current.serialize format).toUTF8 := by
  cases checked with
  | created _ replaced | updatedPass _ _ _ replaced | updatedFail _ _ replaced => exact replaced
  | passed => exact absurd rfl changed

/-- A baseline that was updated is read under the path that it was loaded from. -/
theorem read_updated (checked : Checked before after baseline format current outcome)
    (carries : outcome.comparison? = some comparison) :
    after.read baseline = .ok (current.serialize format).toUTF8 := by
  obtain ⟨former, held, -⟩ := checked.carried carries
  have replaced := checked.written (by rintro rfl; cases carries)
  exact replaced.read_iff.mpr (FileSystem.not_runsThroughItself_of_holds held)

end Checked

/-- What is promised of a check that returns. -/
structure Policy (before after : FileSystem) (baseline : Path) (format : Format) (current : Capture)
    (outcome : Outcome) : Prop where
  created : outcome = .created ↔ before.stat baseline = .error .noEntry
  passed : outcome = .passed ↔ before.Holds baseline current
  updatedPass : (∃ comparison, outcome = .updatedPass comparison) ↔
    ∃ former, before.Holds baseline former ∧ former ≠ current ∧ former.Admits current
  updatedFail : (∃ comparison, outcome = .updatedFail comparison) ↔
    ∃ former, before.Holds baseline former ∧ ¬ former.Admits current
  notExported : outcome ≠ .exported
  carried : ∀ comparison, outcome.comparison? = some comparison →
    ∃ former, before.Holds baseline former ∧ comparison = former.compare current
  untouched : outcome = .passed → after = before
  stored : outcome ≠ .passed → before.Stored after baseline (current.serialize format).toUTF8
  /-- An update is read back under the path that the former tokens were read from. -/
  readable : outcome.comparison? ≠ none →
    after.read baseline = .ok (current.serialize format).toUTF8

theorem Checked.policy {before after : FileSystem} {baseline : Path} {format : Format}
    (checked : Checked before after baseline format current outcome) :
    Policy before after baseline format current outcome where
  created := checked.created_iff
  passed := checked.passed_iff
  updatedPass := checked.updatedPass_iff
  updatedFail := checked.updatedFail_iff
  notExported := by
    rintro rfl
    cases checked
  carried _ carries := checked.carried carries
  untouched := by
    rintro rfl
    exact checked.untouched
  stored changed := (checked.written changed).stored
  readable carries := by
    obtain ⟨comparison, carries⟩ := Option.ne_none_iff_exists'.mp carries
    exact checked.read_updated carries

/-- What the two modes do. A check keeps to the policy; an export always stores the capture,
and needs nothing of the baseline but that it can be saved there. -/
theorem run_policy (truthful : host.Truthful) (runner : SnapshotRunner) (fixture : Path)
    (before : World) :
    (∀ outcome after, Returns host (runner.run .check fixture) before outcome after →
      ∃ current, runner.colorizer.Captures host before.files fixture current ∧
        Policy before.files after.files (runner.baselineOf fixture) runner.colorizer.format current
          outcome) ∧
    (∀ outcome after, Returns host (runner.run .export fixture) before outcome after →
      ∃ current, runner.colorizer.Captures host before.files fixture current ∧
        outcome = .exported ∧
        before.files.Stored after.files (runner.baselineOf fixture)
          (current.serialize runner.colorizer.format).toUTF8) ∧
    ((∃ outcome after, Returns host (runner.run .export fixture) before outcome after) ↔
      ∃ current captured saved, Returns host (runner.colorizer.capture fixture) before current captured ∧
        Returns host (current.save (runner.baselineOf fixture) runner.colorizer.format) captured ()
          saved) := by
  refine ⟨fun outcome after returned => ?_, fun outcome after returned => ?_, ?_⟩
  · obtain ⟨current, captures, checked⟩ := checked_of_run (fun _ => truthful) returned
    exact ⟨current, captures, checked.policy⟩
  · obtain ⟨current, captures, exported, replaced⟩ := exported_of_run returned
    exact ⟨current, captures, exported, replaced.stored⟩
  · constructor
    · rintro ⟨outcome, after, returned⟩
      obtain ⟨current, captured, capture, rest⟩ := Action.returns_bind.mp returned
      obtain ⟨⟨⟩, written, write, -⟩ := Action.returns_bind.mp rest
      obtain ⟨⟨⟩, saved, save, -⟩ := Action.returns_bind.mp write
      exact ⟨current, captured, saved, capture, save⟩
    · rintro ⟨current, captured, saved, capture, save⟩
      obtain ⟨after, told⟩ := Action.exists_returns_tell host saved
        (.exported (runner.baselineOf fixture))
      refine ⟨.exported, after, Action.returns_bind.mpr ⟨current, captured, capture, ?_⟩⟩
      refine Action.returns_bind.mpr ⟨(), after, ?_, Action.returns_pure.mpr ⟨rfl, rfl⟩⟩
      exact Action.returns_bind.mpr ⟨(), saved, save, told⟩

end SnapshotRunner

/-- A host on which nothing breaks down, with one capture for all files. -/
def Host.quiet (capture : Capture) : Host where
  tokenize _ := .tokens capture
  execute _ _ _ := .error .noEntry
  breakdown? _ := none
  helpers := 0

theorem Host.quiet_truthful (capture : Capture) : (quiet capture).Truthful := nofun

namespace SnapshotRunner

def plain (resultsDir : Path) : SnapshotRunner := ⟨⟨.inProcess, .compact, []⟩, resultsDir⟩

def twoThemes : Capture := [⟨"a", "s", .ofList [("dark", "1"), ("light", "2")]⟩]

def oneTheme : Capture := [⟨"a", "t", .ofList [("dark", "1")]⟩]

/-- A source, and a baseline for it in another layout than the runner's. -/
def drifting : FileSystem where
  nodes := [(["x.js"], .file 0o644 (.ofBytes .empty)),
    (["x_js.json"], .file 0o600 (.ofText (twoThemes.serialize .pretty)))]
  working := []

theorem drifting_updates : ∃ comparison after, Returns (.quiet oneTheme)
    ((plain ⟨"."⟩).run .check ⟨"x.js"⟩) (.start drifting) (.updatedPass comparison) after := by
  have passes : Action.returnsWith (.quiet oneTheme) ((plain ⟨"."⟩).run .check ⟨"x.js"⟩)
      (.start drifting) (fun outcome _ => outcome.label = "updated (cosmetic)") = true := by
    decide +kernel
  obtain ⟨outcome, after, returned, label⟩ := Action.returns_of_returnsWith passes
  cases outcome with
  | updatedPass comparison => exact ⟨comparison, after, returned⟩
  | created | passed | updatedFail | exported => simp [Outcome.label] at label

theorem run_policy_drifting : (Host.quiet oneTheme).Truthful ∧ ∃ comparison after current,
    Returns (.quiet oneTheme) ((plain ⟨"."⟩).run .check ⟨"x.js"⟩) (.start drifting)
      (.updatedPass comparison) after ∧
    Policy drifting after.files ((plain ⟨"."⟩).baselineOf ⟨"x.js"⟩) .compact current
      (.updatedPass comparison) := by
  have truthful := Host.quiet_truthful oneTheme
  obtain ⟨comparison, after, returned⟩ := drifting_updates
  obtain ⟨current, -, policy⟩ := (run_policy truthful _ _ _).1 _ after returned
  exact ⟨truthful, comparison, after, current, returned, policy⟩

/-- The directory for results is reached through a link to `sub` that has a baseline's name. -/
def roundabout : FileSystem where
  nodes := [(["sub"], .directory FileSystem.directoryMode), (["x_js.json"], .link ⟨"sub"⟩),
    (["x.js"], .file 0o644 (.ofBytes .empty))]
  working := []

/-- The export puts a file in the link's place, and the way through it is gone. -/
theorem export_closes_its_way : ∃ outcome after,
    Returns (.quiet []) ((plain ⟨"x_js.json/.."⟩).run .export ⟨"x.js"⟩) (.start roundabout) outcome
      after ∧
    outcome = .exported ∧
    after.files.read ((plain ⟨"x_js.json/.."⟩).baselineOf ⟨"x.js"⟩) = .error .notDirectory := by
  have passes : Action.returnsWith (.quiet []) ((plain ⟨"x_js.json/.."⟩).run .export ⟨"x.js"⟩)
      (.start roundabout) (fun outcome after => outcome = .exported ∧
        after.files.read ((plain ⟨"x_js.json/.."⟩).baselineOf ⟨"x.js"⟩) = .error .notDirectory) =
      true := by decide +kernel
  obtain ⟨outcome, after, returned, lost⟩ := Action.returns_of_returnsWith passes
  exact ⟨outcome, after, returned, by simpa using lost⟩

end SnapshotRunner

end Colorization
