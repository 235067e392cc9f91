import Colorization.Colorizer
import Colorization.Snapshot

/-! Routines that only look: whatever they are answered, they never ask for a change of the
files. -/
namespace Colorization

/-- The request changes no file, whatever the world answers. -/
def Request.Still : Request → Prop
  | .stat _ | .openFile _ | .read _ | .list _ | .tokenize _ | .execute _ _ | .tell _ | .print _ _ =>
    True
  | .makeDirectories _ | .createTemporary _ | .setMode _ _ | .overwrite _ _ | .rename _ _
  | .remove _ => False

theorem World.files_look (world : World) (host : Host) (request : FileSystem → Except SystemError α) :
    (world.look host request).2.files = world.files := by
  unfold look
  split <;> rfl

theorem Request.Still.files {request : Request} (still : request.Still) (host : Host) (world : World) :
    (request.perform host world).2.files = world.files := by
  cases request with
  | stat | openFile | read | list => exact World.files_look ..
  | tokenize | execute | tell | print => rfl
  | makeDirectories | createTemporary | setMode | overwrite | rename | remove => exact still.elim

theorem Request.Still.files_of_perform {request : Request} {answer : request.Answer}
    (still : request.Still) (performed : request.perform host before = (answer, after)) :
    after.files = before.files := by
  rw [← still.files host before, performed]

namespace Routine

def Still : Routine α → Prop
  | .done _ | .panic => True
  | .step request next => request.Still ∧ ∀ answer, (next answer).Still

theorem Still.bind {routine : Routine α} {next : α → Routine β} (still : routine.Still)
    (onward : ∀ value, (next value).Still) : (routine >>= next).Still := by
  induction routine with
  | done value => exact onward value
  | panic => trivial
  | step request rest ih => exact ⟨still.1, fun answer => ih answer (still.2 answer)⟩

theorem still_ask {request : Request} (still : request.Still) : (ask request).Still :=
  ⟨still, fun _ => trivial⟩

theorem Still.files {routine : Routine α} (still : routine.Still) (host : Host) (world : World) :
    (routine.run host world).2.files = world.files := by
  induction routine generalizing world with
  | done _ | panic => rfl
  | step request next ih => exact (ih _ (still.2 _) _).trans (still.1.files host world)

theorem still_readText (path : Path) : (readText path).Still := by
  refine Still.bind (still_ask trivial) fun answer => ?_
  cases answer <;> trivial

end Routine

namespace Action

def Still (action : Action α) : Prop := action.run.Still

theorem still_pure (value : α) : Still (pure value) := trivial

theorem still_throw (failure : Failure) : Still (throw failure : Action α) := trivial

theorem Still.bind {action : Action α} {next : α → Action β} (still : Still action)
    (onward : ∀ value, Still (next value)) : Still (action >>= next) := by
  refine Routine.Still.bind still fun result => ?_
  cases result with
  | error failure => trivial
  | ok value => exact onward value

theorem still_lift {routine : Routine α} (still : routine.Still) : Still (liftM routine) :=
  Routine.Still.bind still fun _ => trivial

theorem still_on {path : Path} {routine : Routine (Except SystemError α)} (still : routine.Still) :
    Still (Action.on path routine) :=
  Routine.Still.bind still fun _ => trivial

end Action

open Colorization.Action (still_pure still_throw still_lift still_on)

theorem still_validateSource (path : Path) : (validateSource path).Still := by
  refine .bind (still_lift (Routine.still_ask trivial)) fun answer => ?_
  split
  · exact still_throw _
  split
  · exact still_throw _
  split
  · exact still_throw _
  refine .bind (still_lift (Routine.still_ask trivial)) fun opened => ?_
  split
  · exact still_throw _
  · exact still_pure _

theorem Tokenizer.still_tokens (tokenizer : Tokenizer) (path : Path) :
    (tokenizer.tokens path).Still := by
  cases tokenizer with
  | inProcess =>
    refine .bind (still_lift (Routine.still_ask trivial)) fun reply => ?_
    cases reply <;> trivial
  | command program args =>
    refine .bind (still_lift (Routine.still_ask trivial)) fun _ => ?_
    refine .bind (still_lift (Routine.still_ask trivial)) fun answer => ?_
    cases answer <;> trivial

theorem Colorizer.still_capture (colorizer : Colorizer) (path : Path) :
    (colorizer.capture path).Still :=
  .bind (still_validateSource path) fun _ =>
    .bind (colorizer.tokenizer.still_tokens path) fun _ => still_pure _

theorem Capture.still_load (path : Path) : (Capture.load path).Still := by
  refine .bind (still_on (Routine.still_readText path)) fun text => ?_
  split
  · exact still_pure _
  · exact still_throw _

theorem still_isThere (path : Path) : (isThere path).Still := by
  refine .bind (still_lift (Routine.still_ask trivial)) fun answer => ?_
  split <;> trivial

end Colorization
