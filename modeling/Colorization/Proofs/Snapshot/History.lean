import Colorization.Proofs.Snapshot.Policy

/-! Histories of accepted checks. Each may write what the next one is compared with, and the
relation to the first baseline is kept: it admits the last one, however many there were. -/
namespace Colorization

open Colorization.Action (Returns)

/-- A check with this outcome neither failed nor made a first baseline. -/
def Outcome.Accepted (outcome : Outcome) : Prop :=
  outcome = .passed ∨ ∃ comparison, outcome = .updatedPass comparison

theorem Outcome.Accepted.ne_created (accepted : Outcome.Accepted outcome) : outcome ≠ .created := by
  rcases accepted with rfl | ⟨comparison, rfl⟩ <;> nofun

namespace SnapshotRunner

/-- Accepted checks of one baseline, each by a runner and on a host of its own. Between them
anything may change but the tokens of the baseline. -/
inductive History (baseline : Path) : FileSystem → FileSystem → Prop where
  | start : History baseline files files
  | change : History baseline first before →
      (∀ capture, before.Holds baseline capture → after.Holds baseline capture) →
      History baseline first after
  | check {host : Host} {runner : SnapshotRunner} {before after : World} :
      History baseline first before.files → runner.baselineOf fixture = baseline →
      Returns host (runner.run .check fixture) before outcome after → outcome.Accepted →
      History baseline first after.files

/-- One accepted check leaves a baseline that the former one admits. -/
theorem Checked.admits {before after : FileSystem} {baseline : Path}
    (checked : Checked before after baseline format current outcome) (accepted : outcome.Accepted)
    (held : before.Holds baseline former) :
    after.Holds baseline current ∧ former.Admits current := by
  rcases accepted with rfl | ⟨comparison, rfl⟩
  · cases checked.untouched
    have same := held.unique (checked.passed_iff.mp rfl)
    exact ⟨same ▸ held, same ▸ .refl _⟩
  · obtain ⟨former', held', -, admits⟩ := checked.updatedPass_iff.mp ⟨comparison, rfl⟩
    cases held.unique held'
    exact ⟨FileSystem.holds_of_read (checked.read_updated rfl), admits⟩

theorem History.admits {baseline : Path} {first last : FileSystem} (history : History baseline first last)
    (held : first.Holds baseline original) :
    ∃ final, last.Holds baseline final ∧ original.Admits final := by
  induction history with
  | start => exact ⟨original, held, .refl original⟩
  | change _ kept ih =>
    obtain ⟨former, held, admits⟩ := ih
    exact ⟨former, kept former held, admits⟩
  | check _ same returned accepted ih =>
    obtain ⟨former, held, admits⟩ := ih
    obtain ⟨current, -, checked⟩ :=
      checked_of_run (fun created => absurd created accepted.ne_created) returned
    rw [same] at checked
    obtain ⟨holds, step⟩ := checked.admits accepted held
    exact ⟨current, holds, admits.trans step⟩

/-- A change that is not material is none after the next such change either, so no history of
accepted checks ends with a baseline that the first one would refuse. Both ways a change is not
material only where scopes alone differ. -/
theorem accepted_history :
    (∀ capture : Capture, capture.classify capture ≠ .material) ∧
    (∀ first second third : Capture, first.classify second ≠ .material →
      second.classify third ≠ .material → first.classify third ≠ .material) ∧
    (∀ (baseline : Path) (first last : FileSystem) (original : Capture),
      first.Holds baseline original → History baseline first last →
      ∃ final, last.Holds baseline final ∧ original.classify final ≠ .material) ∧
    (∀ first second : Capture,
      first.classify second ≠ .material ∧ second.classify first ≠ .material ↔
        first.length = second.length ∧ first.map Token.content = second.map Token.content ∧
          first.map Token.themeColors = second.map Token.themeColors) := by
  simp only [Capture.classify_ne_material_iff]
  refine ⟨.refl, fun _ _ _ => .trans, fun _ _ _ _ held history => history.admits held, ?_⟩
  intro first second
  rw [Capture.admits_both_iff]
  constructor
  · rintro ⟨contents, colors⟩
    exact ⟨by simpa using congrArg List.length contents, contents, colors⟩
  · rintro ⟨-, same⟩
    exact same

theorem accepted_history_drifting : ∃ last final,
    drifting.Holds ⟨"./x_js.json"⟩ twoThemes ∧ History ⟨"./x_js.json"⟩ drifting last ∧
    last.Holds ⟨"./x_js.json"⟩ final ∧ twoThemes.classify final ≠ .material := by
  obtain ⟨comparison, after, returned⟩ := drifting_updates
  have written : drifting.read ⟨"./x_js.json"⟩ = .ok (twoThemes.serialize .pretty).toUTF8 := by
    decide +kernel
  have held := FileSystem.holds_of_read written
  have history : History ⟨"./x_js.json"⟩ drifting after.files :=
    .check .start (by decide) returned (.inr ⟨comparison, rfl⟩)
  obtain ⟨final, holds, accepted⟩ := accepted_history.2.2.1 _ _ _ _ held history
  exact ⟨after.files, final, held, history, holds, accepted⟩

end SnapshotRunner

end Colorization
