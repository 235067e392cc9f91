import Colorization.Routine.Basic

/-! Routines that keep to a rule at each of their requests. What is promised of a whole routine is
made up of what is promised of its parts, whichever rule it is. -/
namespace Colorization

/-- In which states a request may be made, if so much is promised of what follows the answer. -/
structure Rule (σ : Type) where
  allows : (request : Request) → (request.Answer → σ → Prop) → σ → Prop
  mono : ∀ {request promise promise' state},
    (∀ answer state, promise answer state → promise' answer state) →
      allows request promise state → allows request promise' state

/-- All requests of the routine are allowed, and it ends as promised. -/
def Routine.Obeys {σ : Type} (rule : Rule σ) (ends : Option α → σ → Prop) : Routine α → σ → Prop
  | .done value, state => ends (some value) state
  | .panic, state => ends none state
  | .step request next, state => rule.allows request (fun answer => (next answer).Obeys rule ends) state

section

variable {σ : Type} {rule : Rule σ} {state : σ}

namespace Routine

theorem Obeys.mono {routine : Routine α} {ends ends' : Option α → σ → Prop}
    (obeys : routine.Obeys rule ends state)
    (weaker : ∀ ended state, ends ended state → ends' ended state) :
    routine.Obeys rule ends' state := by
  induction routine generalizing state with
  | done value => exact weaker _ _ obeys
  | panic => exact weaker _ _ obeys
  | step request next ih => exact rule.mono (fun answer state => ih answer) obeys

theorem Obeys.bind {routine : Routine α} {next : α → Routine β} {ends : Option β → σ → Prop}
    (obeys : routine.Obeys rule (fun ended state =>
      match ended with
      | some value => (next value).Obeys rule ends state
      | none => ends none state) state) :
    (routine >>= next).Obeys rule ends state := by
  induction routine generalizing state with
  | done value => exact obeys
  | panic => exact obeys
  | step request rest ih => exact rule.mono (fun answer state => ih answer) obeys

/-- One request. -/
theorem obeys_ask {request : Request} {ends : Option request.Answer → σ → Prop}
    (allowed : rule.allows request (fun answer => ends (some answer)) state) :
    (ask request).Obeys rule ends state :=
  allowed

end Routine

namespace Action

variable {ends : Option (Except Failure α) → σ → Prop}

/-- A failure ends all of it. -/
theorem obeys_bind {action : Action β} {next : β → Action α}
    (obeys : action.run.Obeys rule (fun (ended : Option (Except Failure β)) state =>
      match ended with
      | some (.ok value) => (next value).run.Obeys rule ends state
      | some (.error failure) => ends (some (.error failure)) state
      | none => ends none state) state) :
    (action >>= next).run.Obeys rule ends state := by
  refine Routine.Obeys.bind (obeys.mono fun ended state promised => ?_)
  match ended with
  | some (.ok value) => exact promised
  | some (.error failure) => exact promised
  | none => exact promised

theorem obeys_lift {routine : Routine α}
    (obeys : routine.Obeys rule (fun ended state => ends (ended.map .ok) state) state) :
    (liftM routine : Action α).run.Obeys rule ends state := by
  refine Routine.Obeys.bind (obeys.mono fun ended state promised => ?_)
  cases ended <;> exact promised

theorem obeys_on {path : Path} {routine : Routine (Except SystemError α)}
    (obeys : routine.Obeys rule (fun ended state =>
      ends (ended.map fun answer => answer.mapError (.system path)) state) state) :
    (Action.on path routine).run.Obeys rule ends state := by
  refine Routine.Obeys.bind (obeys.mono fun ended state promised => ?_)
  cases ended <;> exact promised

theorem obeys_tryCatch {action : Action α} {handler : Failure → Action α}
    (obeys : action.run.Obeys rule (fun (ended : Option (Except Failure α)) state =>
      match ended with
      | some (.error failure) => (handler failure).run.Obeys rule ends state
      | ended => ends ended state) state) :
    (tryCatch action handler).run.Obeys rule ends state := by
  refine Routine.Obeys.bind (obeys.mono fun ended state promised => ?_)
  match ended with
  | some (.ok value) => exact promised
  | some (.error failure) => exact promised
  | none => exact promised

end Action

end

end Colorization
