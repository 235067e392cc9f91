import Colorization.Proofs.Routine.Keeps

/-! Actions whose end is settled from the beginning, whatever others do meanwhile. -/
namespace Colorization.Action

variable {κ σ : Type} [DecidableEq κ] {host : Host} {Inv : (κ → σ) → FileSystem → Prop} {key : κ}
  {hand : σ}

/-- There is one result and one hand for all ways to the end, and a value that is returned is as
promised. -/
def Settled (host : Host) (Inv : (κ → σ) → FileSystem → Prop) (key : κ) (promise : α → σ → Prop)
    (action : Action α) (hand : σ) : Prop :=
  ∃ (ended : Option (Except Failure α)) (hand' : σ),
    (∀ value, ended = some (.ok value) → promise value hand') ∧
    action.run.Keeps host Inv key (fun ended' hand'' => ended' = ended ∧ hand'' = hand') hand

variable {promise : α → σ → Prop}

theorem settled_pure {value : α} (promised : promise value hand) :
    Settled host Inv key promise (pure value) hand := by
  refine ⟨some (.ok value), hand, fun value' same => ?_, rfl, rfl⟩
  cases same
  exact promised

theorem settled_throw (failure : Failure) : Settled host Inv key promise (throw failure) hand :=
  ⟨some (.error failure), hand, nofun, rfl, rfl⟩

theorem settled_panic : Settled host Inv key promise (ExceptT.mk .panic) hand :=
  ⟨none, hand, nofun, rfl, rfl⟩

theorem Settled.mono {promise' : α → σ → Prop} {action : Action α}
    (settled : Settled host Inv key promise action hand)
    (weaker : ∀ value hand, promise value hand → promise' value hand) :
    Settled host Inv key promise' action hand := by
  obtain ⟨ended, hand', promised, keeps⟩ := settled
  exact ⟨ended, hand', fun value same => weaker _ _ (promised value same), keeps⟩

theorem Settled.bind {promise' : β → σ → Prop} {action : Action α} {next : α → Action β}
    (settled : Settled host Inv key promise action hand)
    (onward : ∀ value hand', promise value hand' → Settled host Inv key promise' (next value) hand') :
    Settled host Inv key promise' (action >>= next) hand := by
  obtain ⟨ended, hand', promised, keeps⟩ := settled
  match ended with
  | some (.ok value) =>
    obtain ⟨ended', hand'', promised', keeps'⟩ := onward value hand' (promised value rfl)
    refine ⟨ended', hand'', promised', keeps_bind (keeps.mono ?_)⟩
    rintro _ _ ⟨rfl, rfl⟩
    exact keeps'
  | some (.error failure) =>
    refine ⟨some (.error failure), hand', nofun, keeps_bind (keeps.mono ?_)⟩
    rintro _ _ ⟨rfl, rfl⟩
    exact ⟨rfl, rfl⟩
  | none =>
    refine ⟨none, hand', nofun, keeps_bind (keeps.mono ?_)⟩
    rintro _ _ ⟨rfl, rfl⟩
    exact ⟨rfl, rfl⟩

/-- A request that only looks, and is always answered alike. -/
theorem settled_request (request : Request) (still : request.Still) {answer : request.Answer}
    (alike : ∀ hands world, Inv hands world.files → hands key = hand →
      (request.perform host world).1 = answer) :
    Settled host Inv key (fun answer' hand' => answer' = answer ∧ hand' = hand)
      (liftM (Routine.ask request)) hand := by
  refine ⟨some (.ok answer), hand, fun value same => ?_, keeps_lift ?_⟩
  · cases same
    exact ⟨rfl, rfl⟩
  · exact Routine.keeps_still request still fun hands world kept mine =>
      ⟨congrArg _ (congrArg _ (alike hands world kept mine)), rfl⟩

theorem settled_on {path : Path} {routine : Routine (Except SystemError α)}
    {answer : Except SystemError α} {hand' : σ}
    (keeps : routine.Keeps host Inv key (fun ended hand'' => ended = some answer ∧ hand'' = hand') hand)
    (promised : ∀ value, answer = .ok value → promise value hand') :
    Settled host Inv key promise (Action.on path routine) hand := by
  refine ⟨some (answer.mapError (.system path)), hand', fun value same => ?_, keeps_on (keeps.mono ?_)⟩
  · cases answer with
    | error => cases same
    | ok value' =>
      cases same
      exact promised value rfl
  · rintro _ _ ⟨rfl, rfl⟩
    exact ⟨rfl, rfl⟩

theorem settled_tell (event : Event) (hand : σ) :
    Settled host Inv key (fun _ hand' => hand' = hand) (liftM (Routine.tell event)) hand :=
  (settled_request (.tell event) trivial fun _ _ _ _ => rfl).mono fun _ _ same => same.2

end Colorization.Action
