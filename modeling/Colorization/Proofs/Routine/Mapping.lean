import Colorization.Proofs.Routine.Ends
import Colorization.Proofs.Routine.FanOut

/-! The work for several paths is a map over them, for any number of workers and any order of their turns. The
moves and the groups of workers that take turns come to the same ends. -/
namespace Colorization

namespace FanOut

variable {host : Host} {work : Path → Action α} {paths : List Path} {state : FanOut α}
  {before after : World} {log : List Move}

/-- What the moves still make of a state is what turns make of its workers, those of the group that are not yet called
included, and of the groups to come. The induction goes back from the last move. -/
theorem gathers_of_run {results : List (Path × Except Failure α)}
    (run : Run host work state before log (finished results) after) :
    ∃ pool ends middle rest,
      Turns host (state.workers.map Prod.snd ++ state.waiting.map fun path => (work path).run) before pool middle ∧
      List.Forall₂ Routine.Ended pool ends ∧ host.Gathers work state.later middle rest after ∧
      results = state.results ++
        List.zipWith Host.resultOf (state.workers.map Prod.fst ++ state.waiting) ends ++ rest := by
  generalize isLast : finished results = last at run
  induction run with
  | rest =>
    subst isLast
    exact ⟨[], [], _, [], .rest, .nil, .none, by simp [finished]⟩
  | step move _ ih =>
    obtain ⟨pool, ends, middle, rest, turns, ended, gathers, same⟩ := ih isLast
    cases move with
    | group => exact ⟨[], [], _, _, .rest, .nil, .group turns ended gathers, by simpa using same⟩
    | call => exact ⟨pool, ends, middle, rest, by simpa using turns, ended, gathers, by simpa using same⟩
    | @turn crew i path results waiting later _ request next isThere =>
      have inside : i < (crew.map Prod.snd).length := by simpa using (List.getElem?_eq_some_iff.mp isThere).1
      have isThere' : (crew.map Prod.snd ++ waiting.map fun path => (work path).run)[i]? =
          some (.step request next) := by
        rw [List.getElem?_append_left inside]
        simp [isThere]
      refine ⟨pool, ends, middle, rest, .turn isThere' ?_, ended, gathers, ?_⟩
      · rwa [List.set_append_left _ _ inside, ← List.map_set (a := (path, next _))]
      · rwa [map_fst_set isThere] at same
    | join isEnd =>
      refine ⟨_, _, middle, rest, turns.cons _, .cons isEnd ended, gathers, ?_⟩
      simpa using same

variable {ends : List (Path × Except Failure α)} {parts : List (List Path)} {group : List Path}
  {pool stopped : List (Routine (Except Failure α))} {results : List (Path × Except Failure α)}

/-- All workers of a group can be called before any of them takes a turn. -/
theorem run_call (crew : List (Path × Routine (Except Failure α))) (group : List Path) (world : World) :
    Run host work ⟨ends, crew, group, parts⟩ world (group.map .call)
      ⟨ends, crew ++ group.zip (group.map fun path => (work path).run), [], parts⟩ world := by
  induction group generalizing crew with
  | nil => simpa using Run.rest
  | cons path rest ih =>
    have onward := ih (crew ++ [(path, (work path).run)])
    rw [List.append_assoc] at onward
    exact .step .call onward

theorem run_turns (turns : Turns host pool before stopped after) (same : group.length = pool.length) :
    ∃ log, Run host work ⟨ends, group.zip pool, [], parts⟩ before log
      ⟨ends, group.zip stopped, [], parts⟩ after := by
  induction turns with
  | rest => exact ⟨[], .rest⟩
  | @turn _ i _ _ _ _ _ isThere _ ih =>
    have inside := (List.getElem?_eq_some_iff.mp isThere).1
    obtain ⟨path, isPath⟩ : ∃ path, group[i]? = some path := ⟨_, List.getElem?_eq_getElem (same ▸ inside)⟩
    obtain ⟨log, run⟩ := ih (by simpa using same)
    rw [zip_set isPath] at run
    exact ⟨_, .step (.turn (by simp [List.getElem?_zip_eq_some, isPath, isThere])) run⟩

/-- A group that has ended is waited for in its order. -/
theorem run_join (ended : List.Forall₂ Routine.Ended pool outcomes) (same : group.length = pool.length)
    (world : World) :
    ∃ log, Run host work ⟨ends, group.zip pool, [], parts⟩ world log
      ⟨ends ++ List.zipWith Host.resultOf group outcomes, [], [], parts⟩ world := by
  induction ended generalizing group ends with
  | nil => exact ⟨[], by simpa using Run.rest⟩
  | cons isEnd _ ih =>
    cases group with
    | nil => cases same
    | cons path group =>
      obtain ⟨log, run⟩ := ih (Nat.succ.inj same)
      rw [List.append_assoc] at run
      exact ⟨_, .step (.join isEnd) run⟩

theorem run_of_gathers (gathers : host.Gathers work parts before results after)
    (ends : List (Path × Except Failure α)) :
    ∃ log, Run host work ⟨ends, [], [], parts⟩ before log (finished (ends ++ results)) after := by
  induction gathers generalizing ends with
  | none => exact ⟨[], by simpa [finished] using Run.rest⟩
  | @group before _ middle _ _ _ _ group turns ended _ ih =>
    have size : group.length = (group.map fun path => (work path).run).length := by simp
    obtain ⟨taken, turned⟩ := run_turns turns size
    obtain ⟨joined, waited⟩ := run_join ended (size.trans turns.length_eq.symm) middle
    obtain ⟨log, onward⟩ := ih (ends ++ List.zipWith Host.resultOf group _)
    rw [List.append_assoc] at onward
    exact ⟨_, .step .group ((run_call [] group before).trans (turned.trans (waited.trans onward)))⟩

theorem gathers_iff_run : host.Gathers work (groups host.helpers paths) before results after ↔
    ∃ log, Run host work (start host paths) before log (finished results) after := by
  constructor
  · intro gathers
    exact run_of_gathers gathers []
  · rintro ⟨log, run⟩
    obtain ⟨pool, ends, middle, rest, turns, ended, gathers, same⟩ := gathers_of_run run
    cases turns with
    | rest =>
      cases ended
      rwa [same]
    | turn isThere => cases isThere

/-- All ends of the work are ends of its moves. -/
theorem ends_forEach_iff : (Program.forEach paths work).Ends host before outcome after ↔
    ∃ log results, Run host work (start host paths) before log (finished results) after ∧
      outcome = some results := by
  rw [exists_comm]
  constructor
  · rintro ⟨⟩
    next gathers ends =>
      obtain ⟨rfl, rfl⟩ := Program.ends_done_iff.mp ends
      obtain ⟨log, run⟩ := gathers_iff_run.mp gathers
      exact ⟨_, log, run, rfl⟩
  · rintro ⟨results, log, run, rfl⟩
    exact .fanOut (gathers_iff_run.mpr ⟨log, run⟩) .done

end FanOut

open FanOut

/-- The work for the paths is a map, whatever the number of workers: in whatever order these take their turns it
comes to an end, with one call and one result for each path, in the order of the paths. Where the end of a call hangs
on its path alone, so do the results. -/
theorem forEach_isMap (host : Host) (work : Path → Action α) (paths : List Path) :
    (WellFounded fun (later earlier : FanOut α × World) =>
      ∃ move, Step host work earlier.1 earlier.2 move later.1 later.2) ∧
    (∀ before log state after, Run host work (.start host paths) before log state after →
      state.workers.length ≤ host.helpers + 1 ∧
      (state = .finished state.results ∨ ∃ move next later, Step host work state after move next later)) ∧
    (∀ before log results after, Run host work (.start host paths) before log (.finished results) after →
      IsMap work paths log results) ∧
    (∀ before result after, (Program.forEach paths work).Ends host before result after ↔
      ∃ log results, Run host work (.start host paths) before log (.finished results) after ∧
        result = some results) ∧
    ∀ outcome : Path → Option (Except Failure α), (∀ path ∈ paths, (work path).run.AlwaysEnds (outcome path)) →
      ∀ before result after, (Program.forEach paths work).Ends host before result after →
        result = some (paths.map fun path => Host.resultOf path (outcome path)) := by
  refine ⟨step_wellFounded host work, fun before log state after run => ⟨?_, finished_or_step host work state after⟩,
    fun before log results after run => run.accounts.isMap, fun _ _ _ => ends_forEach_iff, ?_⟩
  · exact Nat.le_of_add_right_le run.manned.1
  · intro outcome always before result after ends
    obtain ⟨log, results, run, rfl⟩ := ends_forEach_iff.mp ends
    exact congrArg some (run.accounts.isMap.eq_map always)

/-- Asks once and ends so. -/
def asking (outcome : Path → Option (Except Failure α)) (path : Path) : Action α :=
  ExceptT.mk (.step (.stat path) fun _ => .ofEnd (outcome path))

def troubled : Path → Option (Except Failure String)
  | ⟨"b.js"⟩ => none
  | ⟨"c.js"⟩ => some (.error (.missingFixtures ⟨"c.js"⟩))
  | path => some (.ok path.text)

def threeSources : List Path := [⟨"a.js"⟩, ⟨"b.js"⟩, ⟨"c.js"⟩]

def pairing : Host := ⟨fun _ => .panicked, fun _ _ _ => .error .noEntry, fun _ => none, 1⟩

/-- Two workers at a time, of which the second comes first and panics, and a third path by itself. -/
theorem forEach_isMap_pairing :
    (∀ path ∈ threeSources, (asking troubled path).run.AlwaysEnds (troubled path)) ∧
    ∃ log results after,
      Run pairing (asking troubled) (.start pairing threeSources) (.start ⟨[], []⟩) log (.finished results) after ∧
      (Program.forEach threeSources (asking troubled)).Ends pairing (.start ⟨[], []⟩) (some results) after ∧
      IsMap (asking troubled) threeSources log results ∧
      results = [(⟨"a.js"⟩, .ok "a.js"), (⟨"b.js"⟩, .error (.capture ⟨"b.js"⟩ .panicked)),
        (⟨"c.js"⟩, .error (.missingFixtures ⟨"c.js"⟩))] := by
  have always (path : Path) : (asking troubled path).run.AlwaysEnds (troubled path) := by
    refine ⟨trivial, fun _ => ?_⟩
    cases troubled path <;> rfl
  have inPairs : (FanOut.start pairing threeSources : FanOut String) =
      ⟨[], [], [], [[⟨"a.js"⟩, ⟨"b.js"⟩], [⟨"c.js"⟩]]⟩ := by
    simp [FanOut.start, groups, pairing, threeSources]
  obtain ⟨log, results, after, run⟩ : ∃ log results after,
      Run pairing (asking troubled) (.start pairing threeSources) (.start ⟨[], []⟩) log (.finished results) after := by
    rw [inPairs]
    exact ⟨_, _, _, .step .group <| .step .call <| .step .call <| .step (.turn (i := 1) rfl) <|
      .step (.turn (i := 0) rfl) <| .step (.join (Routine.ended_ofEnd _)) <| .step (.join (Routine.ended_ofEnd _)) <|
      .step .group <| .step .call <| .step (.turn (i := 0) rfl) <| .step (.join (Routine.ended_ofEnd _)) .rest⟩
  obtain ⟨-, -, isMap, ends, same⟩ := forEach_isMap pairing (asking troubled) threeSources
  have ended := (ends _ _ _).mpr ⟨log, results, run, rfl⟩
  have mapped := same troubled (fun path _ => always path) _ _ _ ended
  exact ⟨fun path _ => always path, log, results, after, run, ended, isMap _ _ _ _ run, Option.some.inj mapped⟩

end Colorization
