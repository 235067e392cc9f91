import Colorization.Proofs.FileSystem.Contested
import Colorization.Proofs.Routine.Course
import Colorization.Proofs.Token.File

/-! What a save and a load ask for, and in which order, whatever is answered. -/
namespace Colorization

open FileSystem (Progress)

/-- One of the things done with a file of tokens. -/
inductive Call where
  | save (capture : Capture) (format : Format)
  | load

/-- What a load makes of the answer to its request. -/
def Capture.ofRead (path : Path) : Except SystemError ByteArray → Except Failure Capture
  | .error error => .error (.system path error)
  | .ok bytes =>
    match Text.ofBytes bytes with
    | .error _ => .error (.system path .notText)
    | .ok text => (Capture.deserialize text).mapError (.format path.text)

theorem Capture.ofRead_of_deserialize (path : Path) {text : String}
    (parsed : Capture.deserialize text = .ok capture) :
    ofRead path (.ok text.toUTF8) = .ok capture := by
  simp only [ofRead, Text.ofBytes_toUTF8, parsed, mapError_ok]

namespace Call

def work (path : Path) : Call → Action (Option Capture)
  | .save capture format => do
    capture.save path format
    return none
  | .load => return some (← Capture.load path)

/-- The bytes that are to be in the file. -/
def draft? : Call → Option ByteArray
  | .save capture format => some (capture.serialize format).toUTF8
  | .load => none

/-- The requests of a call, and how far it is with each answer. -/
inductive Moves (path : Path) :
    Call → Progress → (request : Request) → request.Answer → Progress → Prop where
  | prepare : Moves path (.save capture format) .outside (.makeDirectories path.directory) answer .outside
  | create : Moves path (.save capture format) .outside (.createTemporary path.directory)
      (.ok temporary) (.drafting temporary)
  | createNot : Moves path (.save capture format) .outside (.createTemporary path.directory)
      (.error error) .outside
  | look : Moves path (.save capture format) (.drafting temporary) (.stat path) answer
      (.drafting temporary)
  | setMode : Moves path (.save capture format) (.drafting temporary) (.setMode temporary mode) answer
      (.drafting temporary)
  | fill : Moves path (.save capture format) (.drafting temporary)
      (.overwrite temporary (capture.serialize format).toUTF8) (.ok ()) (.drafted temporary)
  | fillNot : Moves path (.save capture format) (.drafting temporary)
      (.overwrite temporary (capture.serialize format).toUTF8) (.error error) (.drafting temporary)
  | place : Moves path (.save capture format) (.drafted temporary) (.rename temporary path) (.ok ())
      .placed
  | placeNot : Moves path (.save capture format) (.drafted temporary) (.rename temporary path)
      (.error error) (.drafted temporary)
  | giveUp : stage.temporary? = some temporary →
      Moves path (.save capture format) stage (.remove temporary) answer .gone
  | tell : Moves path (.save capture format) .placed (.tell event) answer .placed
  | read : Moves path .load .outside (.read path) answer (.seen answer)

/-- How a call ends: a save fails only where the system refuses something, and a load makes what it
can of what it has read. -/
def Ends (path : Path) : Call → Option (Except Failure (Option Capture)) → Progress → Prop
  | .save _ _, ended, stage => ended = some (.ok none) ∧ stage = .placed ∨
      (∃ place error, ended = some (.error (.system place error))) ∧ stage ≠ .placed
  | .load, ended, stage => ∃ answer, ended = some ((Capture.ofRead path answer).map some) ∧
      stage = .seen answer

end Call

namespace Capture

variable {path temporary : Path} {capture : Capture} {format : Format}

/-- A replacement that is not made is still one's own to remove. -/
def Replaces (temporary : Path) : Option (Except Failure Unit) → Progress → Prop
  | some (.ok ()), stage => stage = .placed
  | some (.error failure), stage => (∃ place error, failure = .system place error) ∧
      stage.temporary? = some temporary
  | none, _ => False

theorem obeys_fill : (do
      Action.on temporary (Routine.overwrite temporary (capture.serialize format).toUTF8)
      Action.on path (Routine.rename temporary path) : Action Unit).run.Obeys
    (.protocol (Call.Moves path (.save capture format))) (Replaces temporary) (.drafting temporary) := by
  refine Action.obeys_bind (Action.obeys_on (Routine.obeys_ask fun answer => ?_))
  match answer with
  | .error error => exact ⟨_, .fillNot, ⟨_, _, rfl⟩, rfl⟩
  | .ok () =>
    refine ⟨_, .fill, Action.obeys_on (Routine.obeys_ask fun answer => ?_)⟩
    match answer with
    | .error error => exact ⟨_, .placeNot, ⟨_, _, rfl⟩, rfl⟩
    | .ok () => exact ⟨_, .place, rfl⟩

theorem obeys_replace : (replace temporary path (capture.serialize format)).run.Obeys
    (.protocol (Call.Moves path (.save capture format))) (Replaces temporary) (.drafting temporary) := by
  refine Action.obeys_bind (Action.obeys_lift (Routine.obeys_ask fun answer => ?_))
  refine ⟨_, .look, ?_⟩
  rcases answer with error | ⟨kind, mode, size⟩
  · exact obeys_fill
  cases kind with
  | directory | other => exact obeys_fill
  | file =>
    refine Action.obeys_bind (Action.obeys_on (Routine.obeys_ask fun answer => ?_))
    refine ⟨_, .setMode, ?_⟩
    match answer with
    | .error error => exact ⟨⟨_, _, rfl⟩, rfl⟩
    | .ok () => exact obeys_fill

theorem obeys_replaceOrRemove :
    (replaceOrRemove temporary path (capture.serialize format)).run.Obeys
    (.protocol (Call.Moves path (.save capture format)))
      (fun ended stage => ended = some (.ok ()) ∧ stage = .placed ∨
        (∃ place error, ended = some (.error (.system place error))) ∧ stage = .gone)
      (.drafting temporary) := by
  refine Action.obeys_tryCatch (obeys_replace.mono fun ended stage replaces => ?_)
  match ended, replaces with
  | some (.ok ()), placed => exact .inl ⟨rfl, placed⟩
  | some (.error failure), ⟨⟨place, error, same⟩, mine⟩ =>
    subst same
    refine Action.obeys_bind (Action.obeys_lift (Routine.obeys_ask fun answer => ?_))
    exact ⟨_, .giveUp mine, .inr ⟨⟨place, error, rfl⟩, rfl⟩⟩

theorem obeys_save : (capture.save path format).run.Obeys
    (.protocol (Call.Moves path (.save capture format)))
    (fun ended stage => ended = some (.ok ()) ∧ stage = .placed ∨
      (∃ place error, ended = some (.error (.system place error))) ∧ stage ≠ .placed) .outside := by
  refine Action.obeys_bind (Action.obeys_on (Routine.obeys_ask fun answer => ?_))
  refine ⟨_, .prepare, ?_⟩
  match answer with
  | .error error => exact .inr ⟨⟨_, _, rfl⟩, nofun⟩
  | .ok () =>
    refine Action.obeys_bind (Action.obeys_on (Routine.obeys_ask fun answer => ?_))
    match answer with
    | .error error => exact ⟨_, .createNot, .inr ⟨⟨_, _, rfl⟩, nofun⟩⟩
    | .ok temporary =>
      refine ⟨_, .create, Action.obeys_bind (obeys_replaceOrRemove.mono ?_)⟩
      rintro _ _ (⟨rfl, rfl⟩ | ⟨⟨place, error, rfl⟩, rfl⟩)
      · exact Action.obeys_lift (Routine.obeys_ask fun _ => ⟨_, .tell, .inl ⟨rfl, rfl⟩⟩)
      · exact .inr ⟨⟨place, error, rfl⟩, nofun⟩

/-- A load is one request. -/
theorem run_load (path : Path) :
    (load path).run = .step (.read path) fun answer => .done (ofRead path answer) := by
  refine congrArg (Routine.step (.read path)) (funext fun answer => ?_)
  cases answer with
  | error error => rfl
  | ok bytes =>
    simp only [ofRead, Routine.bind, Routine.pure_eq]
    cases Text.ofBytes bytes with
    | error fault => rfl
    | ok text =>
      simp only [mapError_ok, ExceptT.bindCont]
      cases deserialize text <;> rfl

theorem obeys_load : (load path).run.Obeys (.protocol (Call.Moves path .load))
    (fun ended stage => ∃ answer, ended = some (ofRead path answer) ∧ stage = .seen answer)
    .outside := by
  rw [run_load]
  exact fun answer => ⟨_, .read, answer, rfl, rfl⟩

end Capture

theorem Call.obeys_work (path : Path) (call : Call) :
    (call.work path).run.Obeys (.protocol (call.Moves path)) (call.Ends path) .outside := by
  cases call with
  | save capture format =>
    refine Action.obeys_bind (Capture.obeys_save.mono ?_)
    rintro _ stage (⟨rfl, placed⟩ | ⟨⟨place, error, rfl⟩, notPlaced⟩)
    · exact .inl ⟨rfl, placed⟩
    · exact .inr ⟨⟨place, error, rfl⟩, notPlaced⟩
  | load =>
    refine Action.obeys_bind (Capture.obeys_load.mono ?_)
    rintro _ stage ⟨answer, rfl, seen⟩
    cases made : Capture.ofRead path answer with
    | error failure => exact ⟨answer, by rw [made]; rfl, seen⟩
    | ok capture => exact ⟨answer, by rw [made]; rfl, seen⟩

end Colorization
