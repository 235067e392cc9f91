import Colorization.Batch
import Colorization.Proofs.Routine.Interleaving
import Colorization.Proofs.Token.Failure
import Mathlib.Data.List.Induction

/-! What becomes of a batch: the captures of its report are those of the workers that did not
fail, and only the directory for the outputs can keep it from a report. -/
namespace Colorization

open Colorization.Action (Returns Fails)

theorem run_tellAll (events : List Event) (host : Host) (world : World) :
    (tellAll events).run host world = (some (), { world with events := world.events ++ events }) := by
  induction events generalizing world with
  | nil => simp [tellAll, Routine.run]
  | cons event rest ih =>
    rw [List.append_cons]
    exact ih { world with events := world.events ++ [event] }

section Report

variable {captures : Captures} {path other : Path} {capture : Capture}
  {results : List (Path × Except Failure Capture)}

theorem Captures.key_of_mem_insert (member : entry ∈ Captures.insert path capture captures) :
    entry.1 = path ∨ ∃ former ∈ captures, entry.1 = former.1 := by
  induction captures with
  | nil => exact .inl (congrArg Prod.fst (List.mem_singleton.mp member))
  | cons first rest ih =>
    rw [Captures.insert] at member
    split at member
    · rcases List.mem_cons.mp member with rfl | later
      · exact .inr ⟨first, List.mem_cons_self, rfl⟩
      · exact .inr ⟨entry, List.mem_cons_of_mem _ later, rfl⟩
    split at member
    · rcases List.mem_cons.mp member with rfl | later
      · exact .inl rfl
      · exact .inr ⟨entry, later, rfl⟩
    · rcases List.mem_cons.mp member with rfl | later
      · exact .inr ⟨entry, List.mem_cons_self, rfl⟩
      · refine (ih later).imp_right ?_
        rintro ⟨former, inside, same⟩
        exact ⟨former, List.mem_cons_of_mem _ inside, same⟩

theorem Captures.lookup_cons (captures : Captures) :
    List.lookup other ((path, capture) :: captures) =
      if other = path then some capture else captures.lookup other := by
  by_cases same : other = path
  · simp [same]
  · have differs : (other == path) = false := by simpa using same
    simp [List.lookup_cons, differs, same]

/-- A capture for a path that is not there yet. -/
theorem Captures.lookup_insert (apart : ∀ entry ∈ captures, path.same entry.1 = false) :
    List.lookup other (Captures.insert path capture captures) =
      if other = path then some capture else captures.lookup other := by
  induction captures with
  | nil => exact lookup_cons []
  | cons first rest ih =>
    obtain ⟨key, former⟩ := first
    have notFirst : path.same key = false := apart _ List.mem_cons_self
    have ih := ih fun entry member => apart entry (List.mem_cons_of_mem _ member)
    rw [Captures.insert, if_neg (by simp [notFirst])]
    split
    · exact lookup_cons _
    · rw [lookup_cons, lookup_cons, ih]
      by_cases same : other = key
      · have differs : key ≠ path := by
          rintro rfl
          simp [Path.same] at notFirst
        simp [same, differs]
      · simp [same]

theorem Captures.mem_of_lookup (there : captures.lookup path = some capture) :
    (path, capture) ∈ captures := by
  induction captures with
  | nil => cases there
  | cons entry rest ih =>
    rw [Captures.lookup_cons] at there
    split at there
    next same =>
      cases there
      rw [same]
      exact List.mem_cons_self
    next => exact List.mem_cons_of_mem _ (ih there)

namespace BatchReport

theorem ofResults_concat (results : List (Path × Except Failure Capture)) (last) :
    ofResults (results ++ [last]) = (ofResults results).add last := by
  simp [ofResults]

theorem mem_captured (member : entry ∈ (ofResults results).captured) :
    ∃ capture, (entry.1, .ok capture) ∈ results := by
  induction results using List.reverseRecOn generalizing entry with
  | nil => cases member
  | append_singleton results last ih =>
    have earlier : ∀ {former}, former ∈ (ofResults results).captured →
        ∃ capture, (former.1, .ok capture) ∈ results ++ [last] := fun inside => by
      obtain ⟨capture, there⟩ := ih inside
      exact ⟨capture, List.mem_append_left _ there⟩
    rw [ofResults_concat] at member
    obtain ⟨path, failure | capture⟩ := last
    · exact earlier member
    · rcases Captures.key_of_mem_insert member with same | ⟨former, inside, same⟩
      · exact ⟨capture, by simp [same]⟩
      · rw [same]
        exact earlier inside

/-- Where no path is captured twice, the report has the captures of all results. -/
theorem lookup_captured (apart : results.Pairwise fun one other => ∀ capture capture',
      one.2 = .ok capture → other.2 = .ok capture' → other.1.same one.1 = false) :
    (ofResults results).captured.lookup path = some capture ↔ (path, .ok capture) ∈ results := by
  induction results using List.reverseRecOn with
  | nil => simp [ofResults, empty]
  | append_singleton results last ih =>
    obtain ⟨before, -, differ⟩ := List.pairwise_append.mp apart
    have ih := ih before
    rw [ofResults_concat]
    obtain ⟨key, failure | given⟩ := last
    · simpa [add] using ih
    · have apart : ∀ entry ∈ (ofResults results).captured, key.same entry.1 = false := by
        intro entry member
        obtain ⟨former, inside⟩ := mem_captured member
        exact differ _ inside _ (List.mem_singleton_self _) former given rfl rfl
      rw [add, Captures.lookup_insert apart]
      by_cases same : path = key
      · subst same
        have notBefore : ∀ capture, (path, .ok capture) ∉ results := by
          intro capture inside
          have twice := differ _ inside _ (List.mem_singleton_self _) capture given rfl rfl
          simp [Path.same] at twice
        simp [notBefore, eq_comm]
      · simp [same, ih]

end BatchReport

end Report

namespace Colorizer

variable {colorizer : Colorizer} {host : Host} {before after : World} {paths : List Path}
  {directory : Path}

theorem returns_prepare (paths : List Path)
    (ran : (Routine.makeDirectories directory).run host before = (some (.ok ()), tried)) :
    ∃ after, Returns host (prepare paths (some directory)) before () after ∧ after.files = tried.files := by
  have toldAll := run_tellAll ((Clash.all directory paths).map fun clash =>
    .sharedOutput clash.first clash.second clash.output) host tried
  have warned := Action.returns_lift.mpr toldAll
  exact ⟨_, Action.returns_bind.mpr ⟨(), tried, Action.returns_on.mpr ran, warned⟩, rfl⟩

theorem prepare_cases (paths : List Path) (directory : Path) (host : Host) (before : World) :
    (∃ failure after, Fails host (prepare paths (some directory)) before (some failure) after ∧
      (after.files = before.files ∨ after.files = (before.files.makeDirectories directory).2)) ∨
    ∃ after, Returns host (prepare paths (some directory)) before () after ∧
      after.files = (before.files.makeDirectories directory).2 := by
  obtain ⟨answer, tried, ran⟩ : ∃ answer tried,
      (Routine.makeDirectories directory).run host before = (some answer, tried) := ⟨_, _, rfl⟩
  have answered := (Routine.run_ask_iff (.makeDirectories directory)).mp ran
  cases answer with
  | error error =>
    refine .inl ⟨.system directory error, tried, ?_, World.files_of_makeDirectories_error answered⟩
    exact Action.fails_bind.mpr (.inl (Action.fails_on.mpr (.inr ⟨error, rfl, ran⟩)))
  | ok =>
    obtain ⟨after, returned, same⟩ := returns_prepare paths ran
    exact .inr ⟨after, returned, same.trans (World.files_of_makeDirectories answered)⟩

/-- A batch that is prepared ends with the report of what its workers come to. -/
theorem gathers_of_captureMany (ran : Returns host (prepare paths outDir) before () prepared)
    (ends : (colorizer.captureMany paths outDir).run.Ends host before result after) :
    ∃ entries gathered, host.Gathers (colorizer.captureInto outDir) (groups host.helpers paths)
        prepared entries gathered ∧
      result = some (.ok (.ofResults entries)) ∧ after.files = gathered.files := by
  cases ends with
  | act ran' rest =>
    cases ran.symm.trans ran'
    cases rest with
    | @fanOut _ _ _ _ entries gathered _ _ _ _ gathers rest =>
      have ran := run_tellAll (entries.map resultEvent) host gathered
      cases rest with
      | act ran' rest =>
        cases ran.symm.trans ran'
        cases rest
        exact ⟨entries, gathered, gathers, rfl, rfl⟩
      | panic ran' => cases ran.symm.trans ran'
  | panic ran' => cases ran.symm.trans ran'

theorem captureMany_of_gathers (ran : Returns host (prepare paths outDir) before () prepared)
    (gathers : host.Gathers (colorizer.captureInto outDir) (groups host.helpers paths) prepared
      entries gathered) :
    ∃ after, (colorizer.captureMany paths outDir).run.Ends host before
      (some (.ok (.ofResults entries))) after ∧ after.files = gathered.files := by
  have toldAll := run_tellAll (entries.map resultEvent) host gathered
  exact ⟨_, .act ran (.fanOut gathers (.act toldAll .done)), rfl⟩

/-- Without the directory there is no report; else all workers do their work in it. -/
theorem ends_captureMany
    (ends : (colorizer.captureMany paths (some directory)).run.Ends host before result after) :
    (∃ failure, result = some (.error failure) ∧
      (after.files = before.files ∨ after.files = (before.files.makeDirectories directory).2)) ∨
    ∃ entries prepared gathered, prepared.files = (before.files.makeDirectories directory).2 ∧
      host.Gathers (colorizer.captureInto (some directory)) (groups host.helpers paths) prepared entries
        gathered ∧
      result = some (.ok (.ofResults entries)) ∧ after.files = gathered.files := by
  rcases prepare_cases paths directory host before with ⟨failure, stopped, ran, left⟩ | ⟨prepared, ran, made⟩
  · cases ends with
    | act ran' rest =>
      cases ran.symm.trans ran'
      cases rest
      exact .inl ⟨failure, rfl, left⟩
    | panic ran' => cases ran.symm.trans ran'
  · obtain ⟨entries, gathered, gathers, told, left⟩ := gathers_of_captureMany ran ends
    exact .inr ⟨entries, prepared, gathered, made, gathers, told, left⟩

end Colorizer

end Colorization
