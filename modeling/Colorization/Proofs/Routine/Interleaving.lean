import Colorization.Proofs.Routine.Returns
import Colorization.Routine.Program
import Mathlib.Data.List.Forall2

/-! Routines that take turns on one world, in any order, and programs whose workers do so. The
plain run of a program is one of the ways in which it can end. -/
namespace Colorization

theorem forall₂_set {S : α → β → Prop} {one : List α} {other : List β}
    (related : List.Forall₂ S one other) (new : S a b) (i : Nat) :
    List.Forall₂ S (one.set i a) (other.set i b) := by
  induction related generalizing i with
  | nil => exact .nil
  | cons head tail ih =>
    cases i with
    | zero => exact .cons new tail
    | succ i => exact .cons head (ih i)

theorem getElem?_of_forall₂ {S : α → β → Prop} {one : List α} {other : List β} {i : Nat}
    (related : List.Forall₂ S one other)
    (isThere : one[i]? = some a) : ∃ b, other[i]? = some b ∧ S a b := by
  induction related generalizing i with
  | nil => cases isThere
  | cons head tail ih =>
    cases i with
    | zero =>
      cases isThere
      exact ⟨_, rfl, head⟩
    | succ i => exact ih isThere

theorem length_le_of_mem_groups {items : List α} (member : group ∈ groups more items) :
    group.length ≤ more + 1 := by
  fun_induction groups more items with
  | case1 => cases member
  | case2 item rest ih =>
    rcases List.mem_cons.mp member with rfl | later
    · rw [List.length_cons]
      exact Nat.succ_le_succ (List.length_take_le ..)
    · exact ih later

namespace World

/-- What is told in this turn is not heard. -/
def unheard (world before : World) : World := { world with events := before.events }

end World

/-- Any number of turns: at each of them one routine makes its next request. -/
inductive Turns (host : Host) : List (Routine α) → World → List (Routine α) → World → Prop where
  | rest : Turns host pool world pool world
  | turn {next : request.Answer → Routine α} : pool[i]? = some (.step request next) →
      Turns host (pool.set i (next (request.perform host world).1))
        ((request.perform host world).2.unheard world) last after →
      Turns host pool world last after

/-- A routine that takes no more turns, with its value or a panic. -/
inductive Routine.Ended : Routine α → Option α → Prop where
  | done : Ended (.done value) (some value)
  | panic : Ended .panic none

namespace Host

/-- What a worker's end is in the results. -/
def resultOf (path : Path) (ended : Option (Except Failure α)) : Path × Except Failure α :=
  (path, ended.getD (.error (.capture path .panicked)))

/-- Groups of workers one after the other; those of one group take turns until all have ended. -/
inductive Gathers (host : Host) (work : Path → Action α) :
    List (List Path) → World → List (Path × Except Failure α) → World → Prop where
  | none : Gathers host work [] world [] world
  | group : Turns host (group.map fun path => (work path).run) before pool middle →
      List.Forall₂ Routine.Ended pool ends → Gathers host work rest middle results after →
      Gathers host work (group :: rest) before (List.zipWith resultOf group ends ++ results) after

end Host

/-- The ways in which a program can end, whatever turns its workers take. -/
inductive Program.Ends (host : Host) : Program α → World → Option α → World → Prop where
  | done : Ends host (.done value) world (some value) world
  | act {routine : Routine β} {next : β → Program α} :
      routine.run host before = (some answer, middle) →
      Ends host (next answer) middle result after → Ends host (.act routine next) before result after
  | panic {routine : Routine β} {next : β → Program α} :
      routine.run host before = (none, after) → Ends host (.act routine next) before none after
  | fanOut {work : Path → Action β} {next : List (Path × Except Failure β) → Program α} :
      host.Gathers work (groups host.helpers paths) before results middle →
      Ends host (next results) middle result after →
      Ends host (.fanOut paths work next) before result after

section Order

variable {host : Host} {before after : World}

theorem Turns.length_eq {pool last : List (Routine α)} (turns : Turns host pool before last after) :
    last.length = pool.length := by
  induction turns with
  | rest => rfl
  | turn _ _ ih => rw [ih, List.length_set]

theorem map_fst_resultOf {group : List Path} {ends : List (Option (Except Failure α))}
    (same : group.length = ends.length) :
    (List.zipWith Host.resultOf group ends).map Prod.fst = group := by
  induction group generalizing ends with
  | nil => rfl
  | cons path rest ih =>
    cases ends with
    | nil => cases same
    | cons ended ends =>
      rw [List.zipWith_cons_cons, List.map_cons, ih (Nat.succ.inj same)]
      rfl

/-- There is one result for each path, in the order of the paths. -/
theorem Host.Gathers.map_fst {work : Path → Action α} {parts : List (List Path)}
    (gathers : host.Gathers work parts before results after) : results.map Prod.fst = parts.flatten := by
  induction gathers with
  | none => rfl
  | group turns ended _ ih =>
    have same := (List.length_map _).symm.trans (turns.length_eq.symm.trans ended.length_eq)
    rw [List.map_append, List.flatten_cons, ih, map_fst_resultOf same]

end Order

section Plain

variable {host : Host} {before after : World}

/-- Whether anything is heard makes no difference to a request. -/
theorem Request.perform_unheard (request : Request) (host : Host) (world other : World) :
    ∃ told, request.perform host (world.unheard other) =
      ((request.perform host world).1, (request.perform host world).2.unheard told) := by
  cases request
  case tell event => exact ⟨(Request.perform host (.tell event) (world.unheard other)).2, rfl⟩
  all_goals
    refine ⟨other, ?_⟩
    simp only [perform, World.unheard, World.look, World.change, World.makeDirectories,
      World.createTemporary, World.overwrite, World.tick]
    repeat' split
    all_goals rfl

theorem Routine.run_unheard (routine : Routine α) (host : Host) (world other : World) :
    ∃ told, routine.run host (world.unheard other) =
      ((routine.run host world).1, (routine.run host world).2.unheard told) := by
  induction routine generalizing world other with
  | done value | panic => exact ⟨other, rfl⟩
  | step request next ih =>
    obtain ⟨told, performed⟩ := request.perform_unheard host world other
    obtain ⟨told', ran⟩ := ih (request.perform host world).1 (request.perform host world).2 told
    exact ⟨told', by rw [run, performed]; exact ran⟩

/-- The routine that has come to an end. -/
def Routine.ofEnd : Option α → Routine α
  | some value => .done value
  | none => .panic

theorem set_of_getElem? {pool : List α} (isThere : pool[i]? = some item) : pool.set i item = pool := by
  obtain ⟨inside, rfl⟩ := List.getElem?_eq_some_iff.mp isThere
  exact List.set_getElem_self inside

/-- One way to take turns is that a routine takes all of its own. -/
theorem turns_run {pool : List (Routine α)} (routine : Routine α) (host : Host) (world : World)
    (isThere : pool[i]? = some routine) :
    Turns host pool world (pool.set i (.ofEnd (routine.run host world).1))
      ((routine.run host world).2.unheard world) := by
  induction routine generalizing pool world with
  | done value | panic =>
    have same := set_of_getElem? isThere
    simp only [Routine.run, Routine.ofEnd, same]
    exact .rest
  | step request next ih =>
    have inside : i < pool.length := (List.getElem?_eq_some_iff.mp isThere).1
    have onward := ih (request.perform host world).1
      ((request.perform host world).2.unheard world) (List.getElem?_set_self inside)
    obtain ⟨told, ran⟩ := (next (request.perform host world).1).run_unheard host
      (request.perform host world).2 world
    rw [ran, List.set_set] at onward
    exact .turn isThere onward

theorem Turns.trans {first second third : List (Routine α)} {start middle stop : World}
    (turns : Turns host first start second middle) (onward : Turns host second middle third stop) :
    Turns host first start third stop := by
  induction turns with
  | rest => exact onward
  | turn isThere _ ih => exact .turn isThere (ih onward)

theorem Turns.cons {pool last : List (Routine α)} (routine : Routine α)
    (turns : Turns host pool before last after) :
    Turns host (routine :: pool) before (routine :: last) after := by
  induction turns with
  | rest => exact .rest
  | turn isThere _ ih => exact .turn (List.getElem?_cons_succ.trans isThere) ih

theorem Routine.ended_ofEnd (ended : Option α) : (Routine.ofEnd ended).Ended ended := by
  cases ended with
  | none => exact .panic
  | some value => exact .done

/-- The work of a group, one worker after the other. -/
theorem turns_workAll (host : Host) (work : Path → Action α) (group : List Path) (world : World) :
    ∃ ends, Turns host (group.map fun path => (work path).run) world (ends.map Routine.ofEnd)
        (host.workAll work group world).2 ∧
      (host.workAll work group world).1 = List.zipWith Host.resultOf group ends := by
  induction group generalizing world with
  | nil => exact ⟨[], .rest, rfl⟩
  | cons path rest ih =>
    have isThere : ((path :: rest).map fun path => (work path).run)[0]? = some (work path).run := rfl
    have first := turns_run _ host world isThere
    obtain ⟨ends, turns, results⟩ := ih (((work path).run.run host world).2.unheard world)
    refine ⟨((work path).run.run host world).1 :: ends, first.trans (turns.cons _), ?_⟩
    rw [List.zipWith_cons_cons, ← results]
    rfl

theorem gathers_workGroups (host : Host) (work : Path → Action α) (groups : List (List Path))
    (world : World) :
    host.Gathers work groups world (host.workGroups work groups world).1
      (host.workGroups work groups world).2 := by
  induction groups generalizing world with
  | nil => exact .none
  | cons group rest ih =>
    obtain ⟨ends, turns, results⟩ := turns_workAll host work group world
    have ended : List.Forall₂ Routine.Ended (ends.map Routine.ofEnd) ends := by
      rw [List.forall₂_map_left_iff, List.forall₂_same]
      exact fun one _ => Routine.ended_ofEnd one
    have whole := Host.Gathers.group turns ended (ih (host.workAll work group world).2)
    rw [← results] at whole
    exact whole

/-- Two workers, the second one before the first. -/
theorem gathers_backwards (host : Host) (work : Path → Action α) (one other : Path) (world : World) :
    host.Gathers work [[one, other]] world
      [Host.resultOf one ((work one).run.run host (((work other).run.run host world).2.unheard world)).1,
        Host.resultOf other ((work other).run.run host world).1]
      (((work one).run.run host (((work other).run.run host world).2.unheard world)).2.unheard
        (((work other).run.run host world).2.unheard world)) := by
  have isOther : [(work one).run, (work other).run][1]? = some (work other).run := rfl
  have first := turns_run _ host world isOther
  have isOne : [(work one).run, .ofEnd ((work other).run.run host world).1][0]? = some (work one).run := rfl
  have second := turns_run _ host (((work other).run.run host world).2.unheard world) isOne
  exact .group (first.trans second)
    (.cons (Routine.ended_ofEnd _) (.cons (Routine.ended_ofEnd _) .nil)) .none

/-- The plain run is one of the ways in which a program can end. -/
theorem Program.ends_run (program : Program α) (host : Host) (world : World) :
    program.Ends host world (program.run host world).1 (program.run host world).2 := by
  induction program generalizing world with
  | done value => exact .done
  | act routine next ih =>
    rw [run]
    rcases ran : routine.run host world with ⟨_ | answer, middle⟩
    · exact .panic ran
    · exact .act ran (ih answer middle)
  | fanOut paths work next ih =>
    exact .fanOut (gathers_workGroups host work _ world) (ih _ _)

end Plain

end Colorization
