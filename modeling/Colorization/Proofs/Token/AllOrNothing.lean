import Colorization.Proofs.FileSystem.Contenders
import Colorization.Proofs.FileSystem.Made
import Colorization.Proofs.Snapshot.Policy
import Colorization.Proofs.Token.Failure
import Colorization.Proofs.Token.Writers

/-! Saves and loads of one file, by any number of calls whose steps come in any order: the file is
what it was at first or what one of the saves has put there, all of it, and nothing else is read. -/
namespace Colorization

open FileSystem (Progress Shared)

/-- Whether a file was put in the place of the path's entry. -/
def Turn.places (path : Path) : Turn → Bool
  | ⟨_, .rename _ target, .ok ()⟩ => target = path
  | _ => false

/-- Who has put a file in its place, in the order in which they did. -/
def placedBy (path : Path) (log : List Turn) : List Nat :=
  (log.filter (·.places path)).map (·.worker)

theorem placedBy_append (path : Path) (log : List Turn) (turn : Turn) :
    placedBy path (log ++ [turn]) =
      placedBy path log ++ if turn.places path then [turn.worker] else [] := by
  rw [placedBy, List.filter_append, List.map_append]
  cases places : turn.places path <;> simp [placedBy, places]

/-- What the calls are to write. -/
def draftOf (calls : List Call) (i : Nat) : Option ByteArray := calls[i]?.bind Call.draft?

theorem draftOf_eq_some (draft : draftOf calls i = some bytes) : ∃ capture format,
    calls[i]? = some (.save capture format) ∧ bytes = (capture.serialize format).toUTF8 := by
  obtain ⟨call, isCall, draft⟩ := Option.bind_eq_some_iff.mp draft
  cases call with
  | load => cases draft
  | save capture format =>
    cases draft
    exact ⟨capture, format, isCall, rfl⟩

section Step

variable {host : Host} {world after : World} {first : FileSystem} {path : Path} {calls : List Call}
  {call : Call} {stages : Nat → Progress} {stage stage' : Progress} {log : List Turn} {placed : List Nat}
  {request : Request} {answer : request.Answer}

/-- A move that puts no file in its place keeps what there is. -/
theorem Call.Moves.shared (move : call.Moves path (stages i) request answer stage)
    (isCall : calls[i]? = some call) (plain : ¬ (first.prepared path).LeadsToTemporary path)
    (performed : request.perform host world = (answer, after))
    (notPlaces : Turn.places path ⟨i, request, answer⟩ = false)
    (shared : Shared first path (draftOf calls) stages placed world.files) :
    Shared first path (draftOf calls) (Function.update stages i stage) placed after.files := by
  have draft : draftOf calls i = call.draft? := by simp [draftOf, isCall]
  generalize here : stages i = was at move
  cases move with
  | prepare =>
    rw [Function.update_eq_self_iff.mpr here.symm]
    rcases World.files_of_makeDirectories_any performed with same | made
    · rw [same]
      exact shared
    · rw [made]
      exact shared.makeDirectories
  | create =>
    exact shared.createTemporary plain (congrArg Progress.temporary? here)
      (World.files_of_createTemporary performed)
  | createNot =>
    rw [Function.update_eq_self_iff.mpr here.symm, World.files_of_createTemporary_error performed]
    exact shared
  | look =>
    have still : (Request.stat path).Still := trivial
    rw [Function.update_eq_self_iff.mpr here.symm, still.files_of_perform performed]
    exact shared
  | @setMode _ _ temporary mode answer =>
    have changed : world.change host (fun files => files.setMode temporary mode) = (answer, after) :=
      performed
    rw [Function.update_eq_self_iff.mpr here.symm]
    cases answer with
    | error error =>
      rw [World.files_of_change_error changed]
      exact shared
    | ok => exact shared.setMode here (World.files_of_change changed)
  | fill =>
    exact shared.overwrite here (World.files_of_overwrite performed) rfl fun _ => ⟨_, draft, rfl⟩
  | fillNot =>
    rcases World.files_of_overwrite_error performed with same | ⟨written, begun⟩
    · rw [Function.update_eq_self_iff.mpr here.symm, same]
      exact shared
    · exact shared.overwrite here begun rfl nofun
  | place => simp [Turn.places] at notPlaces
  | @placeNot _ _ temporary error =>
    have refused : world.change host (fun files => files.rename temporary path) = (.error error, after) :=
      performed
    rw [Function.update_eq_self_iff.mpr here.symm, World.files_of_change_error refused]
    exact shared
  | giveUp mine =>
    cases performed
    exact shared.remove (here ▸ mine)
  | tell =>
    cases performed
    rw [Function.update_eq_self_iff.mpr here.symm]
    exact shared
  | read =>
    have still : (Request.read path).Still := trivial
    rw [still.files_of_perform performed]
    exact shared.unmoved (congrArg Progress.temporary? here) rfl

theorem Call.Moves.shared_place (move : call.Moves path (stages i) request answer stage)
    (performed : request.perform host world = (answer, after))
    (places : Turn.places path ⟨i, request, answer⟩ = true)
    (shared : Shared first path (draftOf calls) stages placed world.files) :
    Shared first path (draftOf calls) (Function.update stages i stage) (placed ++ [i]) after.files := by
  generalize here : stages i = was at move
  cases move with
  | @place _ _ temporary =>
    have renamed : world.change host (fun files => files.rename temporary path) = (.ok (), after) :=
      performed
    exact shared.rename here (World.files_of_change renamed)
  | prepare | create | createNot | look | setMode | fill | fillNot | placeNot | giveUp | tell | read =>
    simp [Turn.places] at places

/-- Who has put a file in its place is at that stage, and stays there. -/
theorem Call.Moves.placed_iff (move : call.Moves path stage request answer stage') :
    stage' = .placed ↔ stage = .placed ∨ Turn.places path ⟨i, request, answer⟩ = true := by
  cases move with
  | giveUp mine =>
    have notPlaced : stage ≠ .placed := by
      rintro rfl
      cases mine
    simp [Turn.places, notPlaced]
  | prepare | create | createNot | look | setMode | fill | fillNot | place | placeNot | tell | read =>
    simp [Turn.places]

/-- What was seen was read. -/
theorem Call.Moves.read_of_seen (move : call.Moves path stage request answer (.seen (.ok bytes)))
    (performed : request.perform host world = (answer, after)) : world.files.read path = .ok bytes := by
  cases move with
  | read =>
    have looked : world.look host (fun files => files.read path) = (.ok bytes, after) := performed
    exact (World.look_eq_ok_iff.mp looked).2.1

end Step

/-- The calls at their stages, with who has put a file in its place and what was read. -/
structure Underway (first : FileSystem) (path : Path) (calls : List Call) (stages : Nat → Progress)
    (log : List Turn) (files : FileSystem) : Prop where
  shared : Shared first path (draftOf calls) stages (placedBy path log) files
  placed : ∀ i, i ∈ placedBy path log ↔ stages i = .placed
  seen : ∀ i bytes, stages i = .seen (.ok bytes) →
    (first.prepared path).read path = .ok bytes ∨ ∃ j ∈ placedBy path log, draftOf calls j = some bytes

/-- How a load can end: it is refused, or it gives what the file gave at first, or the capture of a
save that has put its file in place. -/
inductive LoadEnd (first : FileSystem) (path : Path) (calls : List Call) (log : List Turn) :
    Except Failure (Option Capture) → Prop where
  | refused : LoadEnd first path calls log (.error (.system path error))
  | initial : (first.prepared path).read path = .ok bytes →
      LoadEnd first path calls log ((Capture.ofRead path (.ok bytes)).map some)
  | saved : j ∈ placedBy path log → calls[j]? = some (.save capture format) →
      LoadEnd first path calls log (.ok (some capture))

/-- If there was no file, or that of a capture, all that is read is understood. -/
theorem LoadEnd.ne_format {first : FileSystem} {path : Path}
    (ends : LoadEnd first path calls log result)
    (valid : ∀ bytes, (first.prepared path).read path = .ok bytes →
      ∃ capture, (first.prepared path).Holds path capture) :
    result ≠ .error (.format name fault) := by
  intro fails
  cases ends with
  | refused => cases fails
  | saved => cases fails
  | @initial bytes atFirst =>
    obtain ⟨capture, text, wasRead, parsed⟩ := valid bytes atFirst
    cases atFirst.symm.trans wasRead
    rw [Capture.ofRead_of_deserialize path parsed] at fails
    cases fails

/-- What is promised of a file and of the calls on it, at every moment. The directories above the
path may have to be made before anything can be written. -/
structure AllOrNothing (first : FileSystem) (path : Path) (calls : List Call) (log : List Turn)
    (pool : List (Routine (Except Failure (Option Capture)))) (files : FileSystem) : Prop where
  /-- Before a save has put its file in place the path reads as at first. -/
  untouched : placedBy path log = [] →
    (∀ bytes, files.read path = .ok bytes ↔ first.read path = .ok bytes) ∨
      ∀ bytes, files.read path = .ok bytes ↔ (first.prepared path).read path = .ok bytes
  level : first.Rooted → .parent ∉ path.components →
    ∀ bytes, (first.prepared path).read path = .ok bytes ↔ first.read path = .ok bytes
  /-- Then there is all that the last such save has written. -/
  written : ∀ i, (placedBy path log).getLast? = some i → ∃ capture format,
    calls[i]? = some (.save capture format) ∧
      FileSystem.Written (first.prepared path) files path (capture.serialize format).toUTF8
  loaded : ∀ (i : Nat) result, calls[i]? = some .load → pool[i]? = some (.done result) →
    LoadEnd first path calls log result
  /-- If there was no file, or that of a capture, nothing that cannot be understood is ever read. -/
  legible : (∀ bytes, (first.prepared path).read path = .ok bytes →
      ∃ capture, (first.prepared path).Holds path capture) →
    ∀ (i : Nat) name fault, pool[i]? ≠ some (.done (.error (.format name fault)))
  /-- A save that has ended has put its file in place exactly if it has succeeded. -/
  saved : ∀ (i : Nat) capture format result, calls[i]? = some (.save capture format) →
    pool[i]? = some (.done result) → (i ∈ placedBy path log ↔ result = .ok none)

namespace Underway

variable {host : Host} {world after : World} {first files : FileSystem} {path : Path}
  {calls : List Call} {call : Call} {stages : Nat → Progress} {stage : Progress} {log : List Turn}
  {request : Request} {answer : request.Answer}
  {pool : List (Routine (Except Failure (Option Capture)))} {i : Nat}
  {result : Except Failure (Option Capture)}

theorem start (first : FileSystem) (path : Path) (calls : List Call) :
    Underway first path calls (fun _ => .outside) [] first :=
  ⟨.start fun _ => rfl, fun _ => ⟨nofun, nofun⟩, nofun⟩

theorem step (underway : Underway first path calls stages log world.files)
    (plain : ¬ (first.prepared path).LeadsToTemporary path) (isCall : calls[i]? = some call)
    (move : call.Moves path (stages i) request answer stage)
    (performed : request.perform host world = (answer, after)) :
    Underway first path calls (Function.update stages i stage) (log ++ [⟨i, request, answer⟩])
      after.files where
  shared := by
    rw [placedBy_append]
    cases places : Turn.places path ⟨i, request, answer⟩ with
    | true => exact move.shared_place performed places underway.shared
    | false =>
      rw [if_neg Bool.false_ne_true, List.append_nil]
      exact move.shared isCall plain performed places underway.shared
  placed j := by
    have mine := move.placed_iff (i := i)
    rw [placedBy_append, List.mem_append]
    by_cases same : j = i
    · subst same
      rw [Function.update_self, mine, underway.placed]
      cases Turn.places path ⟨j, request, answer⟩ <;> simp
    · rw [Function.update_of_ne same, underway.placed]
      cases Turn.places path ⟨i, request, answer⟩ <;> simp [same]
  seen j bytes saw := by
    rw [placedBy_append]
    by_cases same : j = i
    · subst same
      rw [Function.update_self] at saw
      subst saw
      refine (underway.shared.read (move.read_of_seen performed)).imp_right ?_
      rintro ⟨k, member, draft⟩
      exact ⟨k, List.mem_append_left _ member, draft⟩
    · rw [Function.update_of_ne same] at saw
      refine (underway.seen j bytes saw).imp_right ?_
      rintro ⟨k, member, draft⟩
      exact ⟨k, List.mem_append_left _ member, draft⟩

theorem loaded (underway : Underway first path calls stages log files)
    (staged : Staged (fun call => call.Moves path) (fun call => call.Ends path) calls pool stages)
    (isCall : calls[i]? = some .load) (ended : pool[i]? = some (.done result)) :
    LoadEnd first path calls log result := by
  obtain ⟨call, isCall', obeys⟩ := staged i _ ended
  cases isCall.symm.trans isCall'
  obtain ⟨answer, same, saw⟩ := obeys
  cases same
  cases answer with
  | error error => exact .refused
  | ok bytes =>
    rcases underway.seen i bytes saw with atFirst | ⟨j, member, draft⟩
    · exact .initial atFirst
    · obtain ⟨capture, format, isSave, rfl⟩ := draftOf_eq_some draft
      rw [Capture.ofRead_of_deserialize path (Capture.deserialize_serialize capture format)]
      exact .saved member isSave

theorem saved (underway : Underway first path calls stages log files)
    (staged : Staged (fun call => call.Moves path) (fun call => call.Ends path) calls pool stages)
    (isCall : calls[i]? = some (.save capture format)) (ended : pool[i]? = some (.done result)) :
    (∃ place error, result = .error (.system place error)) ∧ i ∉ placedBy path log ∨
      result = .ok none ∧ i ∈ placedBy path log := by
  obtain ⟨call, isCall', obeys⟩ := staged i _ ended
  cases isCall.symm.trans isCall'
  rw [underway.placed]
  rcases obeys with ⟨⟨⟩, placed⟩ | ⟨⟨place, error, ⟨⟩⟩, notPlaced⟩
  · exact .inr ⟨rfl, placed⟩
  · exact .inl ⟨⟨place, error, rfl⟩, notPlaced⟩

theorem legible (underway : Underway first path calls stages log files)
    (staged : Staged (fun call => call.Moves path) (fun call => call.Ends path) calls pool stages)
    (valid : ∀ bytes, (first.prepared path).read path = .ok bytes →
      ∃ capture, (first.prepared path).Holds path capture) :
    pool[i]? ≠ some (.done (.error (.format name fault))) := by
  intro ended
  obtain ⟨call, isCall, -⟩ := staged i _ ended
  cases call with
  | save capture format =>
    rcases underway.saved staged isCall ended with (⟨⟨_, _, same⟩, -⟩ | ⟨same, -⟩) <;> cases same
  | load =>
    exact (underway.loaded staged isCall ended).ne_format valid rfl

theorem promised (underway : Underway first path calls stages log files)
    (staged : Staged (fun call => call.Moves path) (fun call => call.Ends path) calls pool stages) :
    AllOrNothing first path calls log pool files where
  untouched none := by
    have shared := underway.shared
    rw [none] at shared
    exact shared.read_of_nil
  level rooted level bytes := by
    have extends' : first.Extends (first.prepared path) :=
      FileSystem.extends_makeDirectories first path.directory
    refine ⟨FileSystem.read_of_find fun place found => ?_, FileSystem.read_of_extends extends'⟩
    obtain ⟨place', found'⟩ := (FileSystem.find_prepared_iff rooted level).mp ⟨place, found⟩
    cases found.symm.trans (FileSystem.find_of_extends extends' found')
    exact found'
  written i last := by
    obtain ⟨bytes, draft, written⟩ := underway.shared.of_last last
    obtain ⟨capture, format, isCall, rfl⟩ := draftOf_eq_some draft
    exact ⟨capture, format, isCall, written⟩
  loaded _ _ isCall ended := underway.loaded staged isCall ended
  legible valid _ _ _ := underway.legible staged valid
  saved i capture format result isCall ended := by
    rcases underway.saved staged isCall ended with ⟨⟨place, error, rfl⟩, notPlaced⟩ | ⟨rfl, placed⟩
    · exact ⟨fun placed => absurd placed notPlaced, nofun⟩
    · exact ⟨fun _ => rfl, fun _ => placed⟩

end Underway

theorem staged_start (path : Path) (calls : List Call) :
    Staged (fun call => call.Moves path) (fun call => call.Ends path) calls
      (calls.map fun call => (call.work path).run) (fun _ => .outside) := by
  intro i routine isThere
  rw [List.getElem?_map, Option.map_eq_some_iff] at isThere
  obtain ⟨call, isCall, rfl⟩ := isThere
  exact ⟨call, isCall, call.obeys_work path⟩

/-- Calls on one file, of which each can stop at any step while the others go on. No path of a new
temporary file is the path's own. -/
theorem Course.allOrNothing {host : Host} {path : Path} {calls : List Call} {before after : World}
    {log : List Turn} {pool : List (Routine (Except Failure (Option Capture)))}
    (course : Course host (calls.map fun call => (call.work path).run) before log pool after)
    (plain : ¬ (before.files.prepared path).LeadsToTemporary path) :
    AllOrNothing before.files path calls log pool after.files := by
  obtain ⟨stages, underway, staged⟩ := course.invariant
    (fun i call stages log world request stage isCall underway move =>
      Underway.step underway plain isCall move rfl)
    (staged_start path calls) (Underway.start before.files path calls)
  exact underway.promised staged

/-- A file that two saves and a load come to. -/
def crowded : FileSystem where
  nodes := [(["x.json"], .file 0o644 (.ofText "[]"))]
  working := []

def crowd : List Call :=
  [.save SnapshotRunner.twoThemes .pretty, .load, .save SnapshotRunner.oneTheme .compact]

/-- The second save is done while the first one has an empty temporary file, and the load comes
between them. -/
theorem allOrNothing_crowd : ∃ log pool after,
    Course (.quiet []) (crowd.map fun call => (call.work ⟨"x.json"⟩).run) (.start crowded) log pool
      after ∧
    ¬ (crowded.prepared ⟨"x.json"⟩).LeadsToTemporary ⟨"x.json"⟩ ∧
    placedBy ⟨"x.json"⟩ log = [2, 0] ∧
    AllOrNothing crowded ⟨"x.json"⟩ crowd log pool after.files := by
  have course := course_play (.quiet []) [0, 0, 0, 0, 2, 2, 2, 2, 2, 2, 0, 1, 0, 0, 2]
    (crowd.map fun call => (call.work ⟨"x.json"⟩).run) (.start crowded)
  have plain : ¬ (crowded.prepared ⟨"x.json"⟩).LeadsToTemporary ⟨"x.json"⟩ := by
    have there : (FileSystem.find (crowded.prepared ⟨"x.json"⟩) ⟨"x.json"⟩).toOption.isSome = true := by
      decide +kernel
    cases found : FileSystem.find (crowded.prepared ⟨"x.json"⟩) ⟨"x.json"⟩ with
    | error error =>
      rw [found] at there
      cases there
    | ok place => exact FileSystem.not_leadsToTemporary_of_find found
  exact ⟨_, _, _, course, plain, by decide +kernel, course.allOrNothing plain⟩

/-- A file that is reached through a directory that is not there. -/
def beyond : FileSystem where
  nodes := [(["b"], .directory FileSystem.directoryMode),
    (["b", "x.json"], .file 0o644 (.ofText "[]"))]
  working := []

/-- A save that has put its file in place can lose the way to it, and one that has not can open the
way to another file. -/
theorem save_changes_ways :
    (∃ log pool after, Course (.quiet []) [((Call.save [] .compact).work ⟨"x_js.json/../x_js.json"⟩).run]
      (.start SnapshotRunner.roundabout) log pool after ∧ (pool.all Routine.hasEnded) = true ∧
      placedBy ⟨"x_js.json/../x_js.json"⟩ log = [0] ∧
      after.files.read ⟨"x_js.json/../x_js.json"⟩ = .error .notDirectory) ∧
    ∃ log pool after, Course (.quiet []) [((Call.save [] .compact).work ⟨"a/../b/x.json"⟩).run]
      (.start beyond) log pool after ∧ placedBy ⟨"a/../b/x.json"⟩ log = [] ∧
      beyond.read ⟨"a/../b/x.json"⟩ = .error .noEntry ∧
      after.files.read ⟨"a/../b/x.json"⟩ = .ok "[]".toUTF8 :=
  ⟨⟨_, _, _, course_play (.quiet []) [0, 0, 0, 0, 0, 0, 0] _ _, by decide +kernel, by decide +kernel,
      by decide +kernel⟩,
    ⟨_, _, _, course_play (.quiet []) [0] _ _, by decide +kernel, by decide +kernel, by decide +kernel⟩⟩

end Colorization
