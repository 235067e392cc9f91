import Colorization.Proofs.Except
import Colorization.Routine.World

/-! What it takes for an action to return a value: every part of it does, each in the world
that the part before it has left. -/
namespace Colorization

namespace Routine

theorem run_ask_iff (request : Request) {answer : request.Answer} :
    (ask request).run host before = (some answer, after) ↔
      request.perform host before = (answer, after) := by
  change (some (request.perform host before).1, (request.perform host before).2) = _ ↔ _
  simp [Prod.ext_iff]

theorem run_bind_eq_some_iff {routine : Routine α} {next : α → Routine β} :
    (routine >>= next).run host before = (some value, after) ↔
      ∃ first middle, routine.run host before = (some first, middle) ∧
        (next first).run host middle = (some value, after) := by
  rw [run_bind]
  generalize routine.run host before = left
  obtain ⟨_ | first, middle⟩ := left
  · simp
  · constructor
    · exact fun rest => ⟨first, middle, rfl, rest⟩
    · rintro ⟨_, _, ⟨⟩, rest⟩
      exact rest

end Routine

namespace Action

/-- The action ends with the value and leaves the world `after`. -/
def Returns (host : Host) (action : Action α) (before : World) (value : α) (after : World) : Prop :=
  action.run.run host before = (some (.ok value), after)

/-- Whether the action returns, with a value and a world that pass the test. -/
def returnsWith (host : Host) (action : Action α) (before : World) (test : α → World → Bool) : Bool :=
  match action.run.run host before with
  | (some (.ok value), after) => test value after
  | _ => false

variable {host : Host} {before after : World}

theorem returns_of_returnsWith {action : Action α} {test : α → World → Bool}
    (passes : returnsWith host action before test = true) :
    ∃ value after, Returns host action before value after ∧ test value after = true := by
  unfold returnsWith at passes
  split at passes
  next value after ends => exact ⟨value, after, ends, passes⟩
  next => cases passes

theorem returns_pure {result value : α} :
    Returns host (pure result) before value after ↔ result = value ∧ before = after := by
  simp [Returns, Routine.run]

theorem not_returns_throw (failure : Failure) :
    ¬ Returns host (throw failure) before (value : α) after :=
  nofun

theorem returns_bind {action : Action α} {next : α → Action β} :
    Returns host (action >>= next) before value after ↔
      ∃ first middle, Returns host action before first middle ∧
        Returns host (next first) middle value after := by
  simp only [Returns, ExceptT.run_bind, Routine.run_bind_eq_some_iff]
  constructor
  · rintro ⟨result, middle, one, two⟩
    cases result with
    | error failure => cases two
    | ok first => exact ⟨first, middle, one, two⟩
  · rintro ⟨first, middle, one, two⟩
    exact ⟨.ok first, middle, one, two⟩

theorem returns_lift {routine : Routine α} :
    Returns host (liftM routine) before value after ↔ routine.run host before = (some value, after) := by
  change (routine >>= fun result => Routine.done (Except.ok result)).run host before = _ ↔ _
  simp [Routine.run_bind_eq_some_iff, Routine.run]

theorem returns_request (request : Request) {answer : request.Answer} :
    Returns host (liftM (Routine.ask request)) before answer after ↔
      request.perform host before = (answer, after) := by
  rw [returns_lift, Routine.run_ask_iff]

theorem returns_request_bind {request : Request} {next : request.Answer → Action α} :
    Returns host (liftM (Routine.ask request) >>= next) before value after ↔
      Returns host (next (request.perform host before).1) (request.perform host before).2 value after :=
  Iff.rfl

theorem files_of_tell (told : Returns host (liftM (Routine.tell event)) before () after) :
    after.files = before.files := by
  have answered := (returns_request (.tell event)).mp told
  exact (congrArg (fun answer => World.files answer.2) answered).symm

theorem exists_returns_tell (host : Host) (before : World) (event : Event) :
    ∃ after, Returns host (liftM (Routine.tell event)) before () after :=
  ⟨_, (returns_request (.tell event)).mpr rfl⟩

theorem returns_on {path : Path} {routine : Routine (Except SystemError α)} :
    Returns host (Action.on path routine) before value after ↔
      routine.run host before = (some (.ok value), after) := by
  change (routine >>= fun result => Routine.done (result.mapError (Failure.system path))).run host before = _ ↔ _
  simp only [Routine.run_bind_eq_some_iff, Routine.run]
  constructor
  · rintro ⟨result, middle, one, two⟩
    cases result with
    | error error => cases two
    | ok first => cases two; exact one
  · exact fun one => ⟨.ok value, after, one, rfl⟩

/-- A handler that always fails again makes nothing return. -/
theorem returns_tryCatch {action : Action α} {handler : Failure → Action α}
    (fails : ∀ failure before, ¬ Returns host (handler failure) before value after) :
    Returns host (tryCatch action handler) before value after ↔ Returns host action before value after := by
  simp only [Returns, tryCatch, tryCatchThe, MonadExceptOf.tryCatch, ExceptT.tryCatch, ExceptT.run,
    ExceptT.mk, Routine.run_bind_eq_some_iff]
  constructor
  · rintro ⟨result, middle, one, two⟩
    cases result with
    | error failure => exact absurd two (fails failure middle)
    | ok first => cases two; exact one
  · exact fun one => ⟨.ok value, after, one, rfl⟩

end Action

namespace World

/-- A request that does not break down and looks at the files. -/
theorem look_eq_ok_iff {host : Host} {before after : World}
    {request : FileSystem → Except SystemError α} :
    before.look host request = (.ok value, after) ↔
      host.breakdown? before.clock = none ∧ request before.files = .ok value ∧ before.tick = after := by
  unfold look
  split <;> simp [*]

theorem files_of_look {host : Host} {before after : World}
    {request : FileSystem → Except SystemError α} (looked : before.look host request = (answer, after)) :
    after.files = before.files := by
  unfold look at looked
  split at looked <;> (cases looked; rfl)

theorem files_of_makeDirectories {host : Host} {before after : World} {path : Path}
    (made : before.makeDirectories host path = (.ok (), after)) :
    after.files = (before.files.makeDirectories path).2 := by
  unfold makeDirectories at made
  split at made
  · cases made
  · exact (congrArg (fun answer => answer.2.files) made).symm

theorem clock_of_makeDirectories {host : Host} {before after : World} {path : Path}
    {answer : Except SystemError Unit} (made : before.makeDirectories host path = (answer, after)) :
    after.clock = before.clock + 1 := by
  unfold makeDirectories at made
  split at made <;> (cases made; rfl)

theorem clock_of_createTemporary {host : Host} {before after : World} {directory : Path}
    {answer : Except SystemError Path} (created : before.createTemporary host directory = (answer, after)) :
    after.clock = before.clock + 1 := by
  unfold createTemporary at created
  repeat' split at created
  all_goals (cases created; rfl)

theorem files_of_createTemporary {host : Host} {before after : World} {directory temporary : Path}
    (created : before.createTemporary host directory = (.ok temporary, after)) :
    before.files.createTemporary directory = .ok (temporary, after.files) := by
  unfold createTemporary at created
  split at created
  · cases created
  next =>
    split at created
    · cases created
    next made =>
      cases created
      exact made

theorem files_of_change {host : Host} {before after : World}
    {request : FileSystem → Except SystemError FileSystem}
    (changed : before.change host request = (.ok (), after)) :
    request before.files = .ok after.files := by
  unfold change at changed
  split at changed
  · cases changed
  next =>
    split at changed
    · cases changed
    next made =>
      cases changed
      exact made

/-- Bytes that are all there were put there by a change. -/
theorem files_of_overwrite {host : Host} {before after : World} {path : Path} {bytes : ByteArray}
    (filled : before.overwrite host path bytes = (.ok (), after)) :
    before.files.overwrite path (.ofBytes bytes) = .ok after.files := by
  unfold overwrite at filled
  split at filled
  · exact files_of_change filled
  · cases filled

end World

end Colorization
