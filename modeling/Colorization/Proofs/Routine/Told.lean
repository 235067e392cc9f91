import Colorization.Proofs.Routine.Fails
import Colorization.Proofs.Routine.Requests
import Colorization.Proofs.Routine.Rules

/-! What routines tell. The log is what is told by the requests, in their order; which requests there can
be is seen without a run. -/
namespace Colorization

/-- What these requests tell. -/
def told (requests : List Request) : List Event :=
  requests.filterMap fun
    | .tell event => some event
    | _ => none

theorem told_append (first second : List Request) : told (first ++ second) = told first ++ told second :=
  List.filterMap_append

theorem told_tell_cons (event : Event) (requests : List Request) :
    told (.tell event :: requests) = event :: told requests :=
  rfl

theorem mem_told_iff {requests : List Request} : event ∈ told requests ↔ .tell event ∈ requests := by
  simp only [told, List.mem_filterMap]
  constructor
  · rintro ⟨request, member, tells⟩
    split at tells
    · cases tells
      exact member
    · cases tells
  · exact fun member => ⟨_, member, rfl⟩

theorem World.events_of_perform (request : Request) (host : Host) (world : World) :
    (request.perform host world).2.events = world.events ++ told [request] := by
  cases request
  case tell => rfl
  all_goals
    simp only [told, List.filterMap_cons, List.filterMap_nil, List.append_nil, Request.perform, look,
      change, makeDirectories, createTemporary, overwrite, tick]
    repeat' split
    all_goals rfl

/-- What is told by a run is what it adds to the log. -/
theorem Routine.events_of_run (routine : Routine α) (host : Host) (world : World) :
    (routine.run host world).2.events = world.events ++ told (routine.requests host world) := by
  induction routine generalizing world with
  | done | panic => exact (List.append_nil _).symm
  | step request next ih =>
    have later := ih (request.perform host world).1 (request.perform host world).2
    rw [World.events_of_perform, List.append_assoc, ← told_append] at later
    exact later

/-- Only such requests are made, whatever is answered. -/
def Rule.only (allowed : Request → Prop) : Rule Unit where
  allows request promise _ := allowed request ∧ ∀ answer, promise answer ()
  mono weaker promised := ⟨promised.1, fun answer => weaker _ _ (promised.2 answer)⟩

theorem Routine.Obeys.requests_allowed {allowed : Request → Prop} {routine : Routine α}
    {ends : Option α → Unit → Prop} (obeys : routine.Obeys (.only allowed) ends ()) (host : Host)
    (world : World) : ∀ request ∈ routine.requests host world, allowed request := by
  induction routine generalizing world with
  | done | panic => exact List.forall_mem_nil _
  | step request next ih =>
    obtain ⟨isAllowed, later⟩ := obeys
    exact List.forall_mem_cons.mpr ⟨isAllowed, ih _ (later _) _⟩

namespace Action

/-- The action makes only such requests. -/
def Only (allowed : Request → Prop) (action : Action α) : Prop :=
  action.run.Obeys (.only allowed) (fun _ _ => True) ()

section

variable {allowed : Request → Prop}

theorem Only.requests {action : Action α} (only : action.Only allowed) (host : Host) (world : World) :
    ∀ request ∈ action.run.requests host world, allowed request :=
  Routine.Obeys.requests_allowed only host world

theorem Only.bind {action : Action α} {next : α → Action β} (only : action.Only allowed)
    (onward : ∀ value, (next value).Only allowed) : (action >>= next).Only allowed := by
  refine obeys_bind (Routine.Obeys.mono only fun ended _ _ => ?_)
  match ended with
  | some (.ok value) => exact onward value
  | some (.error _) => trivial
  | none => trivial

theorem only_pure (value : α) : (pure value : Action α).Only allowed := trivial

theorem only_throw (failure : Failure) : (throw failure : Action α).Only allowed := trivial

theorem only_request {request : Request} (isAllowed : allowed request) :
    (liftM (Routine.ask request) : Action request.Answer).Only allowed :=
  ⟨isAllowed, fun _ => trivial⟩

theorem only_on {path : Path} {routine : Routine (Except SystemError α)}
    (obeys : routine.Obeys (.only allowed) (fun _ _ => True) ()) : (Action.on path routine).Only allowed :=
  obeys_on obeys

theorem Only.tryCatch {action : Action α} {handler : Failure → Action α} (only : action.Only allowed)
    (handled : ∀ failure, (handler failure).Only allowed) : (tryCatch action handler).Only allowed := by
  refine obeys_tryCatch (Routine.Obeys.mono only fun ended _ _ => ?_)
  match ended with
  | some (.ok _) => trivial
  | some (.error failure) => exact handled failure
  | none => trivial

end

variable {host : Host} {before middle : World} {failure : Option Failure} {action : Action α}
  {next : α → Action β}

theorem returns_or_fails (host : Host) (action : Action α) (before : World) :
    (∃ value after, Returns host action before value after) ∨
      ∃ failure after, Fails host action before failure after := by
  rcases ran : action.run.run host before with ⟨_ | failure | value, after⟩
  · exact .inr ⟨none, after, ran⟩
  · exact .inr ⟨some failure, after, ran⟩
  · exact .inl ⟨value, after, ran⟩

theorem not_returns_of_fails (failed : Fails host action before failure after) (value : α)
    (after' : World) : ¬ Returns host action before value after' := by
  intro returned
  cases failure <;> cases failed.symm.trans returned

theorem requests_bind_of_returns (returned : Returns host action before value middle) :
    (action >>= next).run.requests host before =
      action.run.requests host before ++ (next value).run.requests host middle :=
  Routine.requests_bind returned

/-- Nothing is asked for behind a failure. -/
theorem requests_bind_of_fails (failed : Fails host action before failure middle) :
    (action >>= next).run.requests host before = action.run.requests host before := by
  cases failure with
  | none => exact Routine.requests_bind_of_panic failed
  | some failure => exact (Routine.requests_bind failed).trans (List.append_nil _)

/-- What follows is asked only where the first part returns. -/
theorem Only.requests_bind {allowed : Request → Prop} (only : action.Only allowed)
    (onward : ∀ value middle, Returns host action before value middle →
      ∀ request ∈ (next value).run.requests host middle, allowed request) :
    ∀ request ∈ (action >>= next).run.requests host before, allowed request := by
  have first := only.requests host before
  rcases returns_or_fails host action before with ⟨value, middle, returned⟩ | ⟨_, _, failed⟩
  · rw [requests_bind_of_returns returned]
    exact List.forall_mem_append.mpr ⟨first, onward value middle returned⟩
  · rwa [requests_bind_of_fails failed]

theorem requests_tell_bind {next : Unit → Action α} (event : Event) (world : World) :
    (liftM (Routine.tell event) >>= next).run.requests host world =
      .tell event :: (next ()).run.requests host (Request.perform host (.tell event) world).2 :=
  rfl

theorem requests_bind_pure (f : α → β) :
    (action >>= fun value => pure (f value)).run.requests host before =
      action.run.requests host before := by
  rcases returns_or_fails host action before with ⟨value, after, returned⟩ | ⟨failure, after, failed⟩
  · exact (requests_bind_of_returns returned).trans (List.append_nil _)
  · exact requests_bind_of_fails failed

end Action

end Colorization
