import Colorization.Proofs.Routine.Returns
import Colorization.Proofs.Routine.Settled

/-! Actions on a host without breakdowns. The files alone tell how they end, and among others one that
only looks ends as it does alone at some moment. -/
namespace Colorization

open Colorization.Action (Returns Settled keeps_bind keeps_lift)

/-- Only what was told and printed, and how often the tokenizer was asked, may differ. -/
structure World.Alike (world other : World) : Prop where
  files : world.files = other.files
  clock : world.clock = other.clock

theorem Request.perform_alike (request : Request) (host : Host) {world other : World}
    (alike : world.Alike other) :
    (request.perform host world).1 = (request.perform host other).1 ∧
      (request.perform host world).2.Alike (request.perform host other).2 := by
  obtain ⟨files, clock⟩ := alike
  cases request
  all_goals
    simp only [Request.perform, World.look, World.change, World.makeDirectories, World.createTemporary,
      World.overwrite, World.tick, files, clock]
    repeat' split
    all_goals exact ⟨by trivial, by trivial, by trivial⟩

/-- The differences between such worlds are never noticed. -/
theorem Routine.run_alike (routine : Routine α) (host : Host) {world other : World}
    (alike : world.Alike other) :
    (routine.run host world).1 = (routine.run host other).1 ∧
      (routine.run host world).2.Alike (routine.run host other).2 := by
  induction routine generalizing world other with
  | done value | panic => exact ⟨rfl, alike⟩
  | step request next ih =>
    obtain ⟨answered, left⟩ := request.perform_alike host alike
    have onward := ih (request.perform host world).1 left
    simp only [Routine.run]
    rw [← answered]
    exact onward

/-- Nothing breaks down. -/
def Host.Reliable (host : Host) : Prop := ∀ clock, host.breakdown? clock = none

/-- Without breakdowns the files answer. -/
theorem Host.Reliable.look {host : Host} (reliable : host.Reliable) (world : World)
    (request : FileSystem → Except SystemError α) : (world.look host request).1 = request world.files := by
  simp [World.look, reliable world.clock]

/-- Without breakdowns the files alone tell what is answered, and what is left. -/
theorem Host.Reliable.perform {host : Host} (reliable : host.Reliable) (request : Request)
    {world other : World}
    (same : world.files = other.files) :
    (request.perform host world).1 = (request.perform host other).1 ∧
      (request.perform host world).2.files = (request.perform host other).2.files := by
  cases request
  all_goals
    simp only [Request.perform, World.look, World.change, World.makeDirectories, World.createTemporary,
      World.overwrite, World.tick, reliable world.clock, reliable other.clock, same]
    repeat' split
    all_goals exact ⟨rfl, by trivial⟩

theorem Host.Reliable.run {host : Host} (reliable : host.Reliable) (routine : Routine α) {world other : World}
    (same : world.files = other.files) :
    (routine.run host world).1 = (routine.run host other).1 ∧
      (routine.run host world).2.files = (routine.run host other).2.files := by
  induction routine generalizing world other with
  | done value | panic => exact ⟨rfl, same⟩
  | step request next ih =>
    obtain ⟨answered, left⟩ := reliable.perform request same
    have onward := ih (request.perform host world).1 left
    simp only [Routine.run]
    rw [← answered]
    exact onward

theorem Host.Reliable.returns {host : Host} (reliable : host.Reliable) {action : Action α}
    {world other : World}
    (same : world.files = other.files) (returned : Returns host action world value after) :
    ∃ after', Returns host action other value after' ∧ after'.files = after.files := by
  obtain ⟨ended, left⟩ := reliable.run action.run same
  rw [show action.run.run host world = (some (.ok value), after) from returned] at ended left
  exact ⟨(action.run.run host other).2, Prod.ext ended.symm rfl, left.symm⟩

namespace Action

variable {κ σ : Type} [DecidableEq κ] {host : Host} {Inv : (κ → σ) → FileSystem → Prop} {key : κ} {hand : σ}

/-- At some moment among the others the action ends so alone. -/
def Moment (host : Host) (Inv : (κ → σ) → FileSystem → Prop) (key : κ) (hand : σ) (action : Action α)
    (ended : Option (Except Failure α)) : Prop :=
  ∃ hands world, Inv hands world.files ∧ hands key = hand ∧ (action.run.run host world).1 = ended

/-- However it ends, the action ends as it does alone at some moment, and if it returns, the hand has not
moved. -/
def Momentary (host : Host) (Inv : (κ → σ) → FileSystem → Prop) (key : κ) (action : Action α)
    (hand : σ) : Prop :=
  action.run.Keeps host Inv key (fun ended hand' =>
    (∀ value, ended = some (.ok value) → hand' = hand) ∧ Moment host Inv key hand action ended) hand

theorem run_bind (action : Action α) (next : α → Action β) (host : Host) (world : World) :
    (action >>= next).run.run host world =
      match action.run.run host world with
      | (some (.ok value), after) => (next value).run.run host after
      | (some (.error failure), after) => (some (.error failure), after)
      | (none, after) => (none, after) := by
  rw [ExceptT.run_bind, Routine.run_bind]
  rcases action.run.run host world with ⟨_ | _ | _, _⟩ <;> rfl

/-- One request, behind which nothing else is asked for. -/
theorem momentary_of_step (request : Request) {action : Action α}
    {next : request.Answer → Routine (Except Failure α)}
    (isStep : action.run = .step request next) (still : request.Still)
    (finished : ∀ answer, ∃ ended, (next answer).Ended ended) : Momentary host Inv key action hand := by
  unfold Momentary Moment
  rw [isStep]
  intro hands world inv mine
  refine ⟨hand, (still.files host world).symm ▸ kept_unmoved inv mine, ?_⟩
  obtain ⟨ended, isOver⟩ := finished (request.perform host world).1
  have ran : (Routine.step request next).run host world =
      (next (request.perform host world).1).run host (request.perform host world).2 := rfl
  generalize next (request.perform host world).1 = rest at isOver ran ⊢
  cases isOver
  all_goals exact ⟨fun _ _ => rfl, hands, world, inv, mine, congrArg Prod.fst ran⟩

theorem Momentary.map {action : Action α} (momentary : Momentary host Inv key action hand) (f : α → β) :
    Momentary host Inv key (action >>= fun value => pure (f value)) hand := by
  refine keeps_bind (Routine.Keeps.mono momentary ?_)
  rintro ended hand' ⟨unmoved, hands, world, inv, mine, rfl⟩
  have whole := run_bind action (fun value => pure (f value)) host world
  rcases ran : action.run.run host world with ⟨_ | failure | value, after⟩
  all_goals
    rw [ran] at whole unmoved
  · exact ⟨nofun, hands, world, inv, mine, congrArg Prod.fst whole⟩
  · exact ⟨nofun, hands, world, inv, mine, congrArg Prod.fst whole⟩
  · exact ⟨fun _ _ => unmoved value rfl, hands, world, inv, mine, congrArg Prod.fst whole⟩

/-- What comes first is settled and only looks. -/
theorem Settled.momentary_bind {action : Action α} {next : α → Action β}
    (settled : Settled host Inv key (fun _ hand' => hand' = hand) action hand) (still : action.Still)
    (reliable : host.Reliable) (moment : ∃ hands world, Inv hands (World.files world) ∧ hands key = hand)
    (onward : ∀ value, Momentary host Inv key (next value) hand) :
    Momentary host Inv key (action >>= next) hand := by
  obtain ⟨ended, hand', promised, keeps⟩ := settled
  have alone : ∀ hands world, Inv hands (World.files world) → hands key = hand →
      (action.run.run host world).1 = ended := by
    rintro hands world inv rfl
    obtain ⟨_, -, same, -⟩ := keeps.run inv
    exact same
  obtain ⟨hands, world, inv, mine⟩ := moment
  refine keeps_bind (keeps.mono ?_)
  rintro ended _ ⟨rfl, rfl⟩
  match ended with
  | none =>
    refine ⟨nofun, hands, world, inv, mine, ?_⟩
    rw [run_bind, show action.run.run host world = (none, _) from Prod.ext (alone _ _ inv mine) rfl]
  | some (.error failure) =>
    refine ⟨nofun, hands, world, inv, mine, ?_⟩
    rw [run_bind, show action.run.run host world = (some (.error failure), _) from
      Prod.ext (alone _ _ inv mine) rfl]
  | some (.ok value) =>
    cases promised value rfl
    refine Routine.Keeps.mono (onward value) ?_
    rintro ended hand'' ⟨unmoved, hands, world, inv, mine, ran⟩
    refine ⟨unmoved, hands, world, inv, mine, ?_⟩
    rw [run_bind, show action.run.run host world = (some (.ok value), _) from
      Prod.ext (alone _ _ inv mine) rfl]
    exact (reliable.run (next value).run (still.files host world)).1.trans ran

end Action

end Colorization
