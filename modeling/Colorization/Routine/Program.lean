import Colorization.Routine.World

/-! Work that now and then goes on for several paths at a time. The paths are taken in
groups as large as the number of workers, a group being waited for before the next is
begun. A worker's panic is a failure at its path, and what workers tell is not heard. -/
namespace Colorization

inductive Program : Type → Type 1 where
  | done (value : α) : Program α
  | act (routine : Routine β) (next : β → Program α) : Program α
  | fanOut (paths : List Path) (work : Path → Action β)
      (next : List (Path × Except Failure β) → Program α) : Program α

namespace Program

def bind : Program α → (α → Program β) → Program β
  | .done value, f => f value
  | .act routine next, f => .act routine fun answer => (next answer).bind f
  | .fanOut paths work next, f => .fanOut paths work fun results => (next results).bind f

instance : Monad Program where
  pure := .done
  bind := bind

@[simp] theorem pure_eq (value : α) : (pure value : Program α) = .done value := rfl

@[simp] theorem done_bind (value : α) (f : α → Program β) : Program.done value >>= f = f value :=
  rfl

@[simp] theorem act_bind (routine : Routine γ) (next : γ → Program α) (f : α → Program β) :
    Program.act routine next >>= f = .act routine fun answer => next answer >>= f :=
  rfl

@[simp] theorem fanOut_bind (paths : List Path) (work : Path → Action γ)
    (next : List (Path × Except Failure γ) → Program α) (f : α → Program β) :
    Program.fanOut paths work next >>= f = .fanOut paths work fun results => next results >>= f :=
  rfl

theorem bind_done (program : Program α) : program >>= Program.done = program := by
  induction program with
  | done _ => rfl
  | act routine next ih => simp [ih]
  | fanOut paths work next ih => simp [ih]

theorem bind_assoc (program : Program α) (f : α → Program β) (g : β → Program γ) :
    program >>= f >>= g = program >>= fun value => f value >>= g := by
  induction program with
  | done _ => rfl
  | act routine next ih => simp [ih]
  | fanOut paths work next ih => simp [ih]

instance : LawfulMonad Program := LawfulMonad.mk' Program bind_done (fun _ _ => rfl) bind_assoc

instance : MonadLift Routine Program where
  monadLift routine := .act routine .done

/-- Does the work for every path; the results are in the order of the paths. -/
def forEach (paths : List Path) (work : Path → Action α) :
    Program (List (Path × Except Failure α)) :=
  .fanOut paths work .done

end Program

/-- Consecutive groups of `more + 1` items, of which the last may be smaller. -/
def groups (more : Nat) : List α → List (List α)
  | [] => []
  | item :: rest => (item :: rest.take more) :: groups more (rest.drop more)
termination_by items => items.length
decreasing_by
  simp only [List.length_drop, List.length_cons]
  omega

theorem flatten_groups (more : Nat) (items : List α) : (groups more items).flatten = items := by
  fun_induction groups more items with
  | case1 => rfl
  | case2 item rest ih => simp [ih]

namespace Host

/-- What a worker leaves; its events are not heard. -/
def work (host : Host) (work : Path → Action α) (path : Path) (world : World) :
    (Path × Except Failure α) × World :=
  let (result, after) := (work path).run.run host world
  ((path, result.getD (.error (.capture path .panicked))), { after with events := world.events })

def workAll (host : Host) (work : Path → Action α) :
    List Path → World → List (Path × Except Failure α) × World
  | [], world => ([], world)
  | path :: rest, world =>
    let (result, world) := host.work work path world
    let (results, world) := host.workAll work rest world
    (result :: results, world)

/-- The groups one after the other. -/
def workGroups (host : Host) (work : Path → Action α) :
    List (List Path) → World → List (Path × Except Failure α) × World
  | [], world => ([], world)
  | group :: rest, world =>
    let (first, world) := host.workAll work group world
    let (results, world) := host.workGroups work rest world
    (first ++ results, world)

end Host

def Program.run (host : Host) : Program α → World → Option α × World
  | .done value, world => (some value, world)
  | .act routine next, world =>
    match routine.run host world with
    | (some answer, world) => (next answer).run host world
    | (none, world) => (none, world)
  | .fanOut paths work next, world =>
    let (results, world) := host.workGroups work (groups host.helpers paths) world
    (next results).run host world

end Colorization
