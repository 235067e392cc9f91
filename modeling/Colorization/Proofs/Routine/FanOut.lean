import Colorization.Proofs.Routine.Course
import Colorization.Proofs.Routine.Told
import Mathlib.Logic.Hydra

/-! The work for several paths, move by move: a group is begun, its workers are called in the order of the
paths and take turns as soon as they are called, and they are waited for in that order too. No order of the
moves goes on for ever, and each keeps the books: so many calls, and what has become of each. -/
namespace Colorization

open Relation (CutExpand)

theorem getElem?_concat_cases {items : List β} (isThere : (items ++ [last])[i]? = some item) :
    items[i]? = some item ∨ i = items.length ∧ item = last := by
  obtain inside | outside := Nat.lt_or_ge i items.length
  · exact .inl ((List.getElem?_append_left inside).symm.trans isThere)
  · rw [List.getElem?_append_right outside, List.getElem?_singleton] at isThere
    split at isThere
    next zero =>
      cases isThere
      exact .inr ⟨by omega, rfl⟩
    next => cases isThere

theorem map_fst_set {items : List (β × γ)} (isThere : items[i]? = some (key, old)) (new : γ) :
    (items.set i (key, new)).map Prod.fst = items.map Prod.fst := by
  rw [List.map_set]
  exact set_of_getElem? (by simp [isThere])

theorem zip_set {keys : List β} (isKey : keys[i]? = some key) (items : List γ) (new : γ) :
    keys.zip (items.set i new) = (keys.zip items).set i (key, new) := by
  induction keys generalizing items i with
  | nil => cases isKey
  | cons head tail ih =>
    cases items with
    | nil => rfl
    | cons item items =>
      cases i with
      | zero =>
        cases isKey
        rfl
      | succ i => exact congrArg _ (ih isKey items)

namespace Routine

/-- What the routine has become after these turns of its own. -/
inductive Reaches : Routine α → List Turn → Routine α → Prop where
  | rest : Reaches routine [] routine
  | turn {next : request.Answer → Routine α} {answer : request.Answer} : Reaches (next answer) turns last →
      Reaches (.step request next) (⟨i, request, answer⟩ :: turns) last

theorem Reaches.turn_last {routine : Routine α} {next : request.Answer → Routine α} {answer : request.Answer}
    (reaches : routine.Reaches turns (.step request next)) :
    routine.Reaches (turns ++ [⟨i, request, answer⟩]) (next answer) := by
  generalize isLast : Routine.step request next = last at reaches
  induction reaches with
  | rest =>
    subst isLast
    exact .turn .rest
  | turn _ ih => exact .turn (ih isLast)

/-- The routine ends so after these turns. -/
def ComesTo (routine : Routine α) (turns : List Turn) (ended : Option α) : Prop :=
  ∃ last, routine.Reaches turns last ∧ last.Ended ended

/-- Whatever is answered, the routine ends so. -/
def AlwaysEnds (routine : Routine α) (outcome : Option α) : Prop :=
  routine.Obeys (.only fun _ => True) (fun ended _ => ended = outcome) ()

theorem AlwaysEnds.eq_of_comesTo {routine : Routine α} (always : routine.AlwaysEnds outcome)
    (comes : routine.ComesTo turns ended) : ended = outcome := by
  obtain ⟨last, reaches, isEnd⟩ := comes
  induction reaches with
  | rest => cases isEnd <;> exact always
  | turn _ ih => exact ih (always.2 _) isEnd

/-- What a turn leaves of a routine. -/
inductive Follows {α : Type} : Routine α → Routine α → Prop where
  | mk {next : request.Answer → Routine α} {answer : request.Answer} : Follows (next answer) (.step request next)

theorem follows_wellFounded {α : Type} : WellFounded (Follows (α := α)) := by
  refine ⟨fun routine => ?_⟩
  induction routine with
  | done | panic =>
    refine ⟨_, fun routine follows => ?_⟩
    cases follows
  | step request next ih =>
    refine ⟨_, fun routine follows => ?_⟩
    cases follows
    exact ih _

theorem cutExpand_set {pool : List (Routine α)} (isThere : pool[i]? = some routine)
    (follows : Follows next routine) :
    CutExpand Follows (pool.set i next : Multiset (Routine α)) pool := by
  refine ⟨{next}, routine, by simpa using follows, ?_⟩
  induction pool generalizing i with
  | nil => cases isThere
  | cons head tail ih =>
    cases i with
    | zero =>
      cases isThere
      rw [List.set_cons_zero, Multiset.add_comm, Multiset.add_comm _ {next}]
      exact Multiset.cons_swap routine next tail
    | succ i =>
      rw [List.set_cons_succ, ← Multiset.cons_coe, ← Multiset.cons_coe, Multiset.cons_add, Multiset.cons_add,
        ih isThere]

end Routine

@[simp] theorem Host.resultOf_fst (path : Path) (ended : Option (Except Failure α)) :
    (Host.resultOf path ended).1 = path := rfl

/-- How far the work for the paths has come. -/
structure FanOut (α : Type) where
  results : List (Path × Except Failure α)
  /-- The workers that are called and not yet waited for. -/
  workers : List (Path × Routine (Except Failure α))
  /-- The paths of the group that no worker is called for yet. -/
  waiting : List Path
  later : List (List Path)

namespace FanOut

inductive Move where
  | group
  | call (path : Path)
  | turn (turn : Turn)
  | join

/-- One move. A turn is numbered by the position of its path among all paths. -/
inductive Step (host : Host) (work : Path → Action α) :
    FanOut α → World → Move → FanOut α → World → Prop where
  | group : Step host work ⟨ends, [], [], group :: parts⟩ world .group ⟨ends, [], group, parts⟩ world
  | call : Step host work ⟨ends, crew, path :: rest, parts⟩ world (.call path)
      ⟨ends, crew ++ [(path, (work path).run)], rest, parts⟩ world
  | turn {next : request.Answer → Routine (Except Failure α)} : crew[i]? = some (path, .step request next) →
      Step host work ⟨ends, crew, rest, parts⟩ world
        (.turn ⟨ends.length + i, request, (request.perform host world).1⟩)
        ⟨ends, crew.set i (path, next (request.perform host world).1), rest, parts⟩
        ((request.perform host world).2.unheard world)
  | join : Routine.Ended routine ended → Step host work ⟨ends, (path, routine) :: crew, [], parts⟩ world .join
      ⟨ends ++ [Host.resultOf path ended], crew, [], parts⟩ world

/-- Any number of moves. -/
inductive Run (host : Host) (work : Path → Action α) :
    FanOut α → World → List Move → FanOut α → World → Prop where
  | rest : Run host work state world [] state world
  | step : Step host work state world move next middle → Run host work next middle log last after →
      Run host work state world (move :: log) last after

def start (host : Host) (paths : List Path) : FanOut α := ⟨[], [], [], groups host.helpers paths⟩

def finished (results : List (Path × Except Failure α)) : FanOut α := ⟨results, [], [], []⟩

variable {host : Host} {work : Path → Action α} {paths : List Path} {state next last : FanOut α}
  {before middle after : World} {move : Move} {log past : List Move}

theorem Run.trans (run : Run host work state before past next middle)
    (onward : Run host work next middle log last after) : Run host work state before (past ++ log) last after := by
  induction run with
  | rest => exact onward
  | step move _ ih => exact .step move (ih onward)

/-- What every move keeps is kept by all of them. The induction is on the moves, those of the past being part of
the invariant. -/
theorem Run.invariant (Inv : List Move → FanOut α → Prop)
    (step : ∀ log state world move next after, Inv log state → Step host work state world move next after →
      Inv (log ++ [move]) next)
    (run : Run host work state before log last after) (inv : Inv [] state) : Inv log last := by
  suffices onward : ∀ past, Inv past state → Inv (past ++ log) last from onward [] inv
  clear inv
  induction run with
  | rest =>
    intro past inv
    simpa using inv
  | step move _ ih =>
    intro past inv
    simpa using ih _ (step _ _ _ _ _ _ inv move)

section Progress

/-- Before the end there always is a move. -/
theorem finished_or_step (host : Host) (work : Path → Action α) (state : FanOut α) (world : World) :
    state = finished state.results ∨ ∃ move next after, Step host work state world move next after := by
  obtain ⟨results, workers, waiting, later⟩ := state
  cases waiting with
  | cons path waiting => exact .inr ⟨_, _, _, .call⟩
  | nil =>
    cases workers with
    | cons worker workers =>
      obtain ⟨path, routine⟩ := worker
      cases routine with
      | done value => exact .inr ⟨_, _, _, .join .done⟩
      | panic => exact .inr ⟨_, _, _, .join .panic⟩
      | step request next => exact .inr ⟨_, _, _, .turn (i := 0) rfl⟩
    | nil =>
      cases later with
      | cons group later => exact .inr ⟨_, _, _, .group⟩
      | nil => exact .inl rfl

/-- What is left to do: groups to begin, workers to call, turns to take. -/
def effort (state : FanOut α) : Nat × Nat × Multiset (Routine (Except Failure α)) :=
  (state.later.length, state.waiting.length, state.workers.map Prod.snd)

/-- No order of the moves goes on for ever. -/
theorem step_wellFounded (host : Host) (work : Path → Action α) :
    WellFounded fun (later earlier : FanOut α × World) =>
      ∃ move, Step host work earlier.1 earlier.2 move later.1 later.2 := by
  have turns : WellFounded (CutExpand (Routine.Follows (α := Except Failure α))) :=
    Routine.follows_wellFounded.cutExpand
  have measured := Nat.lt_wfRel.wf.prod_lex (Nat.lt_wfRel.wf.prod_lex turns)
  refine Subrelation.wf ?_ (InvImage.wf (fun moment : FanOut α × World => moment.1.effort) measured)
  rintro ⟨next, after⟩ ⟨state, before⟩ ⟨move, step⟩
  cases step with
  | group => exact .left _ _ (Nat.lt_succ_self _)
  | call => exact .right _ (.left _ _ (Nat.lt_succ_self _))
  | turn isThere =>
    refine .right _ (.right _ ?_)
    rw [List.map_set]
    exact Routine.cutExpand_set (by simp [isThere]) .mk
  | @join routine _ _ _ _ _ _ =>
    refine .right _ (.right _ ⟨0, routine, by simp, ?_⟩)
    rw [add_zero, List.map_cons, ← Multiset.cons_coe, ← Multiset.singleton_add, add_comm]

end Progress

section Accounts

@[simp] def Move.path? : Move → Option Path
  | .call path => some path
  | _ => none

@[simp] def Move.turnOf? (position : Nat) : Move → Option Turn
  | .turn taken => if taken.worker = position then some taken else none
  | _ => none

/-- The paths that the work was called for, one call after the other. -/
def called (log : List Move) : List Path := log.filterMap Move.path?

/-- The turns of the worker for the path at this position. -/
def turnsOf (position : Nat) (log : List Move) : List Turn := log.filterMap (Move.turnOf? position)

@[simp] theorem called_append (first second : List Move) :
    called (first ++ second) = called first ++ called second :=
  List.filterMap_append

@[simp] theorem turnsOf_append (position : Nat) (first second : List Move) :
    turnsOf position (first ++ second) = turnsOf position first ++ turnsOf position second :=
  List.filterMap_append

@[simp] theorem called_single (move : Move) : called [move] = move.path?.toList := by
  cases move <;> rfl

@[simp] theorem turnsOf_single (position : Nat) (move : Move) :
    turnsOf position [move] = (move.turnOf? position).toList := by
  rw [turnsOf, List.filterMap_cons, List.filterMap_nil]
  cases move.turnOf? position <;> rfl

/-- The books of the work so far: nothing is lost, nothing is done twice, and every worker is where its own turns
have led. -/
structure Accounts (work : Path → Action α) (paths : List Path) (log : List Move) (state : FanOut α) : Prop where
  complete : state.results.map Prod.fst ++ state.workers.map Prod.fst ++ state.waiting ++ state.later.flatten =
    paths
  calls : called log = state.results.map Prod.fst ++ state.workers.map Prod.fst
  joined : ∀ i entry, state.results[i]? = some entry →
    ∃ ended, (work entry.1).run.ComesTo (turnsOf i log) ended ∧ entry = Host.resultOf entry.1 ended
  going : ∀ i worker, state.workers[i]? = some worker →
    (work worker.1).run.Reaches (turnsOf (state.results.length + i) log) worker.2
  fresh : ∀ position, state.results.length + state.workers.length ≤ position → turnsOf position log = []

theorem accounts_start (host : Host) (work : Path → Action α) (paths : List Path) :
    Accounts work paths [] (start host paths) where
  complete := by simp [start, flatten_groups]
  calls := rfl
  joined := by simp [start]
  going := by simp [start]
  fresh _ _ := rfl

namespace Accounts

variable {ends : List (Path × Except Failure α)} {crew : List (Path × Routine (Except Failure α))}
  {rest : List Path} {parts : List (List Path)}

theorem call (accounts : Accounts work paths log ⟨ends, crew, path :: rest, parts⟩) :
    Accounts work paths (log ++ [.call path]) ⟨ends, crew ++ [(path, (work path).run)], rest, parts⟩ where
  complete := by simpa using accounts.complete
  calls := by simpa [← List.append_assoc] using accounts.calls
  joined := by simpa using accounts.joined
  going i worker isThere := by
    obtain isThere | ⟨rfl, rfl⟩ := getElem?_concat_cases isThere
    · simpa using accounts.going i worker isThere
    · simpa [accounts.fresh _ le_rfl] using Routine.Reaches.rest
  fresh position beyond := by
    have beyond' : ends.length + crew.length ≤ position := by
      simp only [List.length_append] at beyond
      omega
    simpa using accounts.fresh position beyond'

theorem turn {next : request.Answer → Routine (Except Failure α)}
    (accounts : Accounts work paths log ⟨ends, crew, rest, parts⟩)
    (isThere : crew[i]? = some (path, .step request next)) (answer : request.Answer) :
    Accounts work paths (log ++ [.turn ⟨ends.length + i, request, answer⟩])
      ⟨ends, crew.set i (path, next answer), rest, parts⟩ := by
  have inside : i < crew.length := (List.getElem?_eq_some_iff.mp isThere).1
  have names := map_fst_set isThere (next answer)
  have elsewhere (position : Nat) (other : ends.length + i ≠ position) :
      turnsOf position (log ++ [.turn ⟨ends.length + i, request, answer⟩]) = turnsOf position log := by
    simp [other]
  constructor
  case complete => simpa [names] using accounts.complete
  case calls => simpa [names] using accounts.calls
  case joined =>
    intro j entry isEntry
    have earlier : j < ends.length := (List.getElem?_eq_some_iff.mp isEntry).1
    rw [elsewhere j (by omega)]
    exact accounts.joined j entry isEntry
  case going =>
    intro j worker isWorker
    obtain rfl | other := eq_or_ne i j
    · rw [List.getElem?_set_self inside] at isWorker
      cases isWorker
      simpa using (accounts.going i _ isThere).turn_last
    · rw [List.getElem?_set_ne other] at isWorker
      exact (elsewhere (ends.length + j) (by omega)).symm ▸ accounts.going j worker isWorker
  case fresh =>
    intro position beyond
    simp only [List.length_set] at beyond
    rw [elsewhere position (by omega)]
    exact accounts.fresh position beyond

theorem join (accounts : Accounts work paths log ⟨ends, (path, routine) :: crew, [], parts⟩)
    (isEnd : routine.Ended ended) :
    Accounts work paths (log ++ [.join]) ⟨ends ++ [Host.resultOf path ended], crew, [], parts⟩ where
  complete := by simpa using accounts.complete
  calls := by simpa using accounts.calls
  joined i entry isEntry := by
    obtain isEntry | ⟨rfl, rfl⟩ := getElem?_concat_cases isEntry
    · simpa using accounts.joined i entry isEntry
    · have reaches := accounts.going 0 _ rfl
      exact ⟨ended, ⟨routine, by simpa using reaches, isEnd⟩, rfl⟩
  going i worker isWorker := by
    have reaches := accounts.going (i + 1) worker isWorker
    simpa [Nat.add_assoc, Nat.add_comm 1] using reaches
  fresh position beyond := by
    have beyond' : ends.length + (crew.length + 1) ≤ position := by
      simp only [List.length_append, List.length_singleton] at beyond
      omega
    simpa using accounts.fresh position beyond'

/-- The books are kept move by move. -/
theorem step (accounts : Accounts work paths log state) (step : Step host work state before move next after) :
    Accounts work paths (log ++ [move]) next := by
  cases step with
  | group =>
    obtain ⟨complete, calls, joined, -, fresh⟩ := accounts
    exact ⟨by simpa using complete, by simpa using calls, by simpa using joined, by simp, by simpa using fresh⟩
  | call => exact accounts.call
  | turn isThere => exact accounts.turn isThere _
  | join isEnd => exact accounts.join isEnd

end Accounts

/-- What comes of the work for the paths when it is over. -/
structure IsMap (work : Path → Action α) (paths : List Path) (log : List Move)
    (results : List (Path × Except Failure α)) : Prop where
  /-- One call for each position, in order. -/
  calls : called log = paths
  length : results.length = paths.length
  entry : ∀ i path, paths[i]? = some path →
    ∃ ended, (work path).run.ComesTo (turnsOf i log) ended ∧ results[i]? = some (Host.resultOf path ended)

theorem Accounts.isMap {results : List (Path × Except Failure α)}
    (accounts : Accounts work paths log (finished results)) : IsMap work paths log results := by
  have complete : results.map Prod.fst = paths := by simpa [finished] using accounts.complete
  refine ⟨by simpa [finished, complete] using accounts.calls, by simp [← complete], fun i path isPath => ?_⟩
  rw [← complete, List.getElem?_map, Option.map_eq_some_iff] at isPath
  obtain ⟨entry, isEntry, rfl⟩ := isPath
  obtain ⟨ended, comes, same⟩ := accounts.joined i entry isEntry
  exact ⟨ended, comes, isEntry.trans (congrArg some same)⟩

/-- Where the end of a call hangs on its path alone, so do the results. -/
theorem IsMap.eq_map {results : List (Path × Except Failure α)} {outcome : Path → Option (Except Failure α)}
    (isMap : IsMap work paths log results)
    (always : ∀ path ∈ paths, (work path).run.AlwaysEnds (outcome path)) :
    results = paths.map fun path => Host.resultOf path (outcome path) := by
  refine List.ext_getElem? fun i => ?_
  rw [List.getElem?_map]
  cases isPath : paths[i]? with
  | none =>
    rw [List.getElem?_eq_none_iff, ← isMap.length] at isPath
    rw [List.getElem?_eq_none isPath, Option.map_none]
  | some path =>
    obtain ⟨ended, comes, isResult⟩ := isMap.entry i path isPath
    rw [isResult, (always path (List.mem_of_getElem? isPath)).eq_of_comesTo comes, Option.map_some]

theorem Run.accounts (run : Run host work (start host paths) before log state after) :
    Accounts work paths log state :=
  run.invariant (Accounts work paths) (fun _ _ _ _ _ _ accounts move => accounts.step move)
    (accounts_start host work paths)

end Accounts

section Few

/-- There are workers enough for the group, and for those to come. -/
def Manned (host : Host) (state : FanOut α) : Prop :=
  state.workers.length + state.waiting.length ≤ host.helpers + 1 ∧
    ∀ group ∈ state.later, group.length ≤ host.helpers + 1

theorem Manned.step (manned : Manned host state) (step : Step host work state before move next after) :
    Manned host next := by
  obtain ⟨few, later⟩ := manned
  cases step with
  | group =>
    obtain ⟨first, rest⟩ := List.forall_mem_cons.mp later
    exact ⟨by simpa using first, rest⟩
  | call => exact ⟨by simpa [Nat.add_right_comm, Nat.add_assoc] using few, later⟩
  | turn => exact ⟨by simpa using few, later⟩
  | join => exact ⟨Nat.le_of_succ_le few, later⟩

theorem Run.manned (run : Run host work (start host paths) before log state after) : Manned host state :=
  run.invariant (fun _ => Manned host) (fun _ _ _ _ _ _ manned move => manned.step move)
    ⟨Nat.zero_le _, fun _ => length_le_of_mem_groups⟩

end Few

end FanOut

end Colorization
