import Colorization.Proofs.Routine.Interleaving
import Colorization.Proofs.Routine.Rules
import Mathlib.Logic.Function.Basic

/-! Turns that are written down: who made which request, and what was answered. Where every
routine follows a protocol, whatever each move of the protocol keeps is kept by all turns. -/
namespace Colorization

/-- A request of one of the routines, and what was answered. -/
structure Turn where
  worker : Nat
  request : Request
  answer : request.Answer

/-- The turns that were taken, in their order, and what they left. -/
inductive Course (host : Host) :
    List (Routine α) → World → List Turn → List (Routine α) → World → Prop where
  | rest : Course host pool world [] pool world
  | turn {next : request.Answer → Routine α} : pool[i]? = some (.step request next) →
      Course host (pool.set i (next (request.perform host world).1))
        ((request.perform host world).2.unheard world) log last after →
      Course host pool world (⟨i, request, (request.perform host world).1⟩ :: log) last after

variable {host : Host} {before after : World} {log : List Turn}

/-- All turns can be written down. -/
theorem turns_iff_course {pool last : List (Routine α)} :
    Turns host pool before last after ↔ ∃ log, Course host pool before log last after := by
  constructor
  · intro turns
    induction turns with
    | rest => exact ⟨[], .rest⟩
    | turn isThere _ ih =>
      obtain ⟨log, course⟩ := ih
      exact ⟨_, .turn isThere course⟩
  · rintro ⟨log, course⟩
    induction course with
    | rest => exact .rest
    | turn isThere _ ih => exact .turn isThere ih

/-- Lets the routines take their turns in this order, in which one that has ended is passed over. -/
def play (host : Host) : List Nat → List (Routine α) → World →
    List Turn × List (Routine α) × World
  | [], pool, world => ([], pool, world)
  | i :: order, pool, world =>
    match pool[i]? with
    | some (.step request next) =>
      let (answer, after) := request.perform host world
      let (log, last) := play host order (pool.set i (next answer)) (after.unheard world)
      (⟨i, request, answer⟩ :: log, last)
    | _ => play host order pool world

def Routine.hasEnded : Routine α → Bool
  | .done _ | .panic => true
  | .step _ _ => false

theorem course_play (host : Host) (order : List Nat) (pool : List (Routine α)) (world : World) :
    Course host pool world (play host order pool world).1 (play host order pool world).2.1
      (play host order pool world).2.2 := by
  induction order generalizing pool world with
  | nil => exact .rest
  | cons i order ih =>
    unfold play
    split
    next request next isThere => exact .turn isThere (ih _ _)
    next => exact ih _ _

/-- Whatever is answered the routine makes a move, from stage to stage. -/
def Rule.protocol (moves : σ → (request : Request) → request.Answer → σ → Prop) : Rule σ where
  allows request promise stage := ∀ answer, ∃ stage', moves stage request answer stage' ∧
    promise answer stage'
  mono weaker allowed answer := by
    obtain ⟨stage', move, promised⟩ := allowed answer
    exact ⟨stage', move, weaker _ _ promised⟩

/-- Also a run by itself ends as promised. -/
theorem Routine.Obeys.run_protocol {moves : σ → (request : Request) → request.Answer → σ → Prop}
    {routine : Routine α} {ends : Option α → σ → Prop} {stage : σ}
    (obeys : routine.Obeys (.protocol moves) ends stage) (host : Host) (world : World) :
    ∃ stage', ends (routine.run host world).1 stage' := by
  induction routine generalizing stage world with
  | done value => exact ⟨stage, obeys⟩
  | panic => exact ⟨stage, obeys⟩
  | step request next ih =>
    obtain ⟨stage', -, onward⟩ := obeys (request.perform host world).1
    exact ih _ onward _

section Together

variable {κ σ : Type} {moves : κ → σ → (request : Request) → request.Answer → σ → Prop}
  {ends : κ → Option α → σ → Prop} {calls : List κ} {pool last : List (Routine α)} {stages : Nat → σ}

/-- Each of the routines is at its stage of what its call does. -/
def Staged (moves : κ → σ → (request : Request) → request.Answer → σ → Prop)
    (ends : κ → Option α → σ → Prop) (calls : List κ) (pool : List (Routine α)) (stages : Nat → σ) :
    Prop :=
  ∀ i (routine : Routine α), pool[i]? = some routine →
    ∃ call, calls[i]? = some call ∧ routine.Obeys (.protocol (moves call)) (ends call) (stages i)

/-- A turn is a move of one call, and the others stay where they are. -/
theorem Staged.turn {next : request.Answer → Routine α} (staged : Staged moves ends calls pool stages)
    (isThere : pool[i]? = some (.step request next)) (answer : request.Answer) :
    ∃ call stage, calls[i]? = some call ∧ moves call (stages i) request answer stage ∧
      Staged moves ends calls (pool.set i (next answer)) (Function.update stages i stage) := by
  obtain ⟨call, isCall, obeys⟩ := staged i _ isThere
  obtain ⟨stage, move, onward⟩ := obeys answer
  refine ⟨call, stage, isCall, move, fun j routine isRoutine => ?_⟩
  by_cases same : j = i
  · subst same
    rw [List.getElem?_set_self (List.getElem?_eq_some_iff.mp isThere).1] at isRoutine
    cases isRoutine
    rw [Function.update_self]
    exact ⟨call, isCall, onward⟩
  · rw [List.getElem?_set_ne (Ne.symm same)] at isRoutine
    rw [Function.update_of_ne same]
    exact staged j routine isRoutine

/-- What every move keeps is kept by all turns. The induction is on the turns, those of the past
being part of the invariant. -/
theorem Course.invariant {Inv : (Nat → σ) → List Turn → FileSystem → Prop}
    (step : ∀ i call stages log world request stage, calls[i]? = some call →
      Inv stages log world.files → moves call (stages i) request (request.perform host world).1 stage →
      Inv (Function.update stages i stage) (log ++ [⟨i, request, (request.perform host world).1⟩])
        (request.perform host world).2.files)
    (course : Course host pool before log last after) (staged : Staged moves ends calls pool stages)
    (inv : Inv stages past before.files) :
    ∃ stages', Inv stages' (past ++ log) after.files ∧ Staged moves ends calls last stages' := by
  induction course generalizing stages past with
  | rest => exact ⟨stages, by simpa using inv, staged⟩
  | @turn _ i _ _ _ world request _ isThere _ ih =>
    obtain ⟨call, stage, isCall, move, onward⟩ := staged.turn isThere (request.perform host world).1
    have inv' := step i call stages past world request stage isCall inv move
    obtain ⟨stages', inv'', staged'⟩ := ih onward inv'
    exact ⟨stages', by simpa using inv'', staged'⟩

end Together

end Colorization
