import Colorization.Proofs.Routine.Returns
import Colorization.Proofs.Routine.Still

/-! What it takes for an action to fail: one of its parts fails, and the parts before it have
returned. -/
namespace Colorization.Action

/-- The action ends with the failure, or with a panic if there is none, and leaves the world
`after`. -/
def Fails (host : Host) (action : Action α) (before : World) (failure : Option Failure)
    (after : World) : Prop :=
  action.run.run host before = (failure.map .error, after)

/-- Whether the action fails, and leaves a world that passes the test. -/
def failsWith (host : Host) (action : Action α) (before : World) (test : World → Bool) : Bool :=
  match action.run.run host before with
  | (some (.error _), after) => test after
  | _ => false

variable {host : Host} {before after : World} {failure : Option Failure}

theorem Fails.unique {action : Action α} (failed : Fails host action before failure after)
    (failed' : Fails host action before failure' after') : failure = failure' := by
  cases failure <;> cases failure' <;> cases failed.symm.trans failed' <;> rfl

theorem fails_of_failsWith {action : Action α} {test : World → Bool}
    (passes : failsWith host action before test = true) :
    ∃ failure after, Fails host action before (some failure) after ∧ test after = true := by
  unfold failsWith at passes
  split at passes
  next failure after ends => exact ⟨failure, after, ends, passes⟩
  next => cases passes

theorem not_fails_pure {value : α} : ¬ Fails host (pure value) before failure after := by
  cases failure <;> nofun

theorem fails_throw {failure' : Failure} :
    Fails host (throw failure' : Action α) before failure after ↔
      failure = some failure' ∧ before = after := by
  change (some (Except.error failure'), before) = _ ↔ _
  cases failure <;> simp [eq_comm]

theorem fails_bind {action : Action α} {next : α → Action β} :
    Fails host (action >>= next) before failure after ↔ Fails host action before failure after ∨
      ∃ value middle, Returns host action before value middle ∧
        Fails host (next value) middle failure after := by
  simp only [Fails, Returns, ExceptT.run_bind, Routine.run_bind]
  rcases action.run.run host before with ⟨_ | error | value, middle⟩
  · cases failure <;> simp
  · cases failure <;> simp [Routine.run]
  · constructor
    · exact fun rest => .inr ⟨value, middle, rfl, rest⟩
    · rintro (failed | ⟨_, _, ⟨⟩, rest⟩)
      · cases failure <;> cases failed
      · exact rest

theorem fails_request_bind {request : Request} {next : request.Answer → Action α} :
    Fails host (liftM (Routine.ask request) >>= next) before failure after ↔
      Fails host (next (request.perform host before).1) (request.perform host before).2 failure after :=
  Iff.rfl

theorem not_fails_request (request : Request) :
    ¬ Fails host (liftM (Routine.ask request)) before failure after := by
  intro failed
  have ended := congrArg Prod.fst failed
  cases failure <;> cases ended

theorem fails_on {path : Path} {routine : Routine (Except SystemError α)} :
    Fails host (Action.on path routine) before failure after ↔
      (failure = none ∧ routine.run host before = (none, after)) ∨
      ∃ error, failure = some (.system path error) ∧
        routine.run host before = (some (.error error), after) := by
  change (routine >>= fun result => Routine.done (result.mapError (Failure.system path))).run host
    before = _ ↔ _
  rw [Routine.run_bind]
  rcases routine.run host before with ⟨_ | error | value, middle⟩
  · cases failure <;> simp
  · constructor
    · intro failed
      cases failure <;> cases failed
      exact .inr ⟨error, rfl, rfl⟩
    · rintro (⟨-, ⟨⟩⟩ | ⟨_, rfl, ⟨⟩⟩)
      rfl
  · cases failure <;> simp [Routine.run]

/-- A request does not panic. -/
theorem error_of_fails_on {path : Path} {routine : Routine (Except SystemError α)}
    (failed : Fails host (Action.on path routine) before failure after)
    (answers : (routine.run host before).1 ≠ none) :
    ∃ error, failure = some (.system path error) ∧
      routine.run host before = (some (.error error), after) := by
  rcases fails_on.mp failed with ⟨-, ended⟩ | refused
  · exact absurd (congrArg Prod.fst ended) answers
  · exact refused

/-- What a handler does comes after a failure, but not after a panic. -/
theorem fails_tryCatch {action : Action α} {handler : Failure → Action α} :
    Fails host (tryCatch action handler) before failure after ↔
      (failure = none ∧ Fails host action before none after) ∨
      ∃ failure' middle, Fails host action before (some failure') middle ∧
        Fails host (handler failure') middle failure after := by
  simp only [Fails, tryCatch, tryCatchThe, MonadExceptOf.tryCatch, ExceptT.tryCatch, ExceptT.run,
    ExceptT.mk, Routine.run_bind]
  rcases Routine.run host action before with ⟨_ | error | value, middle⟩
  · cases failure <;> simp
  · constructor
    · exact fun rest => .inr ⟨error, middle, rfl, rest⟩
    · rintro (⟨-, ⟨⟩⟩ | ⟨_, _, ⟨⟩, rest⟩)
      exact rest
  · cases failure <;> simp [Routine.run]

theorem files_of_fails {action : Action α} (still : action.Still)
    (failed : Fails host action before failure after) : after.files = before.files := by
  rw [← still.files host before, failed]

end Colorization.Action
