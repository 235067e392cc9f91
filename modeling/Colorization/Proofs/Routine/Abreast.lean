import Colorization.Proofs.Routine.Interleaving
import Colorization.Proofs.Routine.Momentary

/-! Two works that ask for the same, apart from what they tell. Whatever turns the workers of the one
take, those of the other can take theirs so that they come to the same. It makes no difference if the
one finds a directory made that the other has yet to make, as long as no worker can tell. -/
namespace Colorization

variable {R : α → β → Prop} {host : Host}

/-- The routines ask for the same, apart from what they tell, and their values belong together. -/
inductive Routine.Abreast (R : α → β → Prop) : Routine α → Routine β → Prop where
  | done : R value value' → Abreast R (.done value) (.done value')
  | panic : Abreast R .panic .panic
  | step {next : request.Answer → Routine α} {next' : request.Answer → Routine β} :
      (∀ answer, Abreast R (next answer) (next' answer)) →
      Abreast R (.step request next) (.step request next')
  | tell {next : Unit → Routine α} :
      Abreast R (next ()) routine' → Abreast R (.step (.tell event) next) routine'
  | tell' {next : Unit → Routine β} :
      Abreast R routine (next ()) → Abreast R routine (.step (.tell event) next)

namespace Routine.Abreast

theorem refl {R : α → α → Prop} (same : ∀ value, R value value) (routine : Routine α) :
    Abreast R routine routine := by
  induction routine with
  | done value => exact .done (same value)
  | panic => exact .panic
  | step request next ih => exact .step ih

theorem symm {routine : Routine α} {routine' : Routine β} (abreast : Abreast R routine routine') :
    Abreast (fun value' value => R value value') routine' routine := by
  induction abreast with
  | done belong => exact .done belong
  | panic => exact .panic
  | step _ ih => exact .step ih
  | tell _ ih => exact .tell' ih
  | tell' _ ih => exact .tell ih

theorem bind {S : γ → δ → Prop} {routine : Routine α} {routine' : Routine β} {next : α → Routine γ}
    {next' : β → Routine δ} (abreast : Abreast R routine routine')
    (onward : ∀ value value', R value value' → Abreast S (next value) (next' value')) :
    Abreast S (routine >>= next) (routine' >>= next') := by
  induction abreast with
  | done belong => exact onward _ _ belong
  | panic => exact .panic
  | step _ ih => exact .step ih
  | tell _ ih => exact .tell ih
  | tell' _ ih => exact .tell' ih

/-- What is left of a routine when the other has ended is only told. -/
theorem run_of_ended {routine : Routine α} {routine' : Routine β} (abreast : Abreast R routine routine')
    (finished : routine.Ended ended) (host : Host) :
    ∃ ended', Option.Rel R ended ended' ∧ ∀ world, (routine'.run host world).1 = ended' ∧
      (routine'.run host world).2.files = world.files := by
  induction abreast generalizing ended with
  | done belong =>
    cases finished
    exact ⟨_, .some belong, fun world => ⟨rfl, rfl⟩⟩
  | panic =>
    cases finished
    exact ⟨_, .none, fun world => ⟨rfl, rfl⟩⟩
  | step | tell => cases finished
  | tell' _ ih =>
    obtain ⟨ended', related, runs⟩ := ih finished
    exact ⟨ended', related, fun world => runs _⟩

end Routine.Abreast

section Directory

variable {directory : Path} {files made : FileSystem}

/-- Making the directory leads from the one to the other and no further. -/
structure Unmade (directory : Path) (files made : FileSystem) : Prop where
  makes : files.makeDirectories directory = (.ok (), made)
  again : made.makeDirectories directory = (.ok (), made)

/-- Before it makes the directory the routine cannot tell whether it is there. -/
inductive Routine.Unaware (host : Host) (directory : Path) (files made : FileSystem) : Routine α → Prop where
  | done : Unaware host directory files made (.done value)
  | panic : Unaware host directory files made .panic
  | look {next : request.Answer → Routine α} : request.Still →
      (∀ world world' : World, world.files ∈ [files, made] → world'.files ∈ [files, made] →
        (request.perform host world).1 = (request.perform host world').1) →
      (∀ answer, Unaware host directory files made (next answer)) →
      Unaware host directory files made (.step request next)
  | make {next : Except SystemError Unit → Routine α} :
      Unaware host directory files made (.step (.makeDirectories directory) next)

theorem Routine.Unaware.bind {routine : Routine α} {next : α → Routine β}
    (unaware : routine.Unaware host directory files made)
    (onward : ∀ value, (next value).Unaware host directory files made) :
    (routine >>= next).Unaware host directory files made := by
  induction unaware with
  | done => exact onward _
  | panic => exact .panic
  | look still alike _ ih => exact .look still alike ih
  | make => exact .make

/-- The files are the same, or at most the directory is made in the one and not in the other. -/
inductive Nearly (directory : Path) (files made one other : FileSystem) : Prop where
  | same : one = other → Nearly directory files made one other
  | early : Unmade directory files made → one ∈ [files, made] → other ∈ [files, made] →
      Nearly directory files made one other

theorem Nearly.symm (nearly : Nearly directory files made one other) :
    Nearly directory files made other one := by
  cases nearly with
  | same same => exact .same same.symm
  | early unmade isOne isOther => exact .early unmade isOther isOne

/-- The files are the same, or they differ only in that the directory is made, which nobody can tell. -/
inductive Matched (host : Host) (directory : Path) (files made : FileSystem) (pool : List (Routine α))
    (pool' : List (Routine β)) (one other : FileSystem) : Prop where
  | same : one = other → Matched host directory files made pool pool' one other
  | early : Unmade directory files made → one ∈ [files, made] → other ∈ [files, made] →
      (∀ routine ∈ pool, routine.Unaware host directory files made) →
      (∀ routine ∈ pool', routine.Unaware host directory files made) →
      Matched host directory files made pool pool' one other

namespace Matched

variable {pool : List (Routine α)} {pool' : List (Routine β)} {before before' : World}

theorem nearly (matched : Matched host directory files made pool pool' one other) :
    Nearly directory files made one other := by
  cases matched with
  | same same => exact .same same
  | early unmade isOne isOther => exact .early unmade isOne isOther

theorem unaware_set {routine : Routine α}
    (unaware : ∀ routine ∈ pool, routine.Unaware host directory files made)
    (new : routine.Unaware host directory files made) :
    ∀ other ∈ pool.set i routine, other.Unaware host directory files made := by
  intro other member
  rcases List.mem_or_eq_of_mem_set member with old | same
  · exact unaware other old
  · exact same ▸ new

/-- What is only told changes nothing. -/
theorem tell {next : Unit → Routine α}
    (matched : Matched host directory files made pool pool' before.files before'.files)
    (isThere : pool[i]? = some (.step (.tell event) next)) :
    Matched host directory files made (pool.set i (next ())) pool' before.files before'.files := by
  cases matched with
  | same same => exact .same same
  | early unmade one other unaware unaware' =>
    refine .early unmade one other (unaware_set unaware ?_) unaware'
    cases unaware _ (List.mem_of_getElem? isThere) with
    | look _ _ onward => exact onward ()

theorem symm (matched : Matched host directory files made pool pool' before.files before'.files) :
    Matched host directory files made pool' pool before'.files before.files := by
  cases matched with
  | same same => exact .same same.symm
  | early unmade one other unaware unaware' => exact .early unmade other one unaware' unaware

/-- Both ask for the same and are answered alike. -/
theorem step (reliable : host.Reliable) {request : Request} {next : request.Answer → Routine α}
    {next' : request.Answer → Routine β}
    (matched : Matched host directory files made pool pool' before.files before'.files)
    (isThere : pool[i]? = some (.step request next)) (isThere' : pool'[i]? = some (.step request next')) :
    (request.perform host before).1 = (request.perform host before').1 ∧
      Matched host directory files made (pool.set i (next (request.perform host before).1))
        (pool'.set i (next' (request.perform host before').1)) (request.perform host before).2.files
        (request.perform host before').2.files := by
  cases matched with
  | same same =>
    obtain ⟨answered, left⟩ := reliable.perform request same
    exact ⟨answered, .same left⟩
  | early unmade one other unaware unaware' =>
    cases unaware _ (List.mem_of_getElem? isThere) with
    | look still alike onward =>
      have answered := alike before before' one other
      refine ⟨answered, ?_⟩
      rw [still.files, still.files]
      cases unaware' _ (List.mem_of_getElem? isThere') with
      | look _ _ onward' =>
        exact .early unmade one other (unaware_set unaware (onward _)) (unaware_set unaware' (onward' _))
      | make => exact still.elim
    | make =>
      have makes : ∀ world : World, world.files ∈ [files, made] →
          (Request.perform host (.makeDirectories directory) world).1 = .ok () ∧
          (Request.perform host (.makeDirectories directory) world).2.files = made := by
        intro world among
        have all : world.files.makeDirectories directory = (.ok (), made) := by
          rcases List.mem_pair.mp among with same | same
          · rw [same, unmade.makes]
          · rw [same, unmade.again]
        have performed : Request.perform host (.makeDirectories directory) world =
            (.ok (), { world.tick with files := made }) := by
          simp only [Request.perform, World.makeDirectories, reliable world.clock, all]
          rfl
        rw [performed]
        exact ⟨rfl, rfl⟩
      obtain ⟨answered, left⟩ := makes before one
      obtain ⟨answered', left'⟩ := makes before' other
      exact ⟨answered.trans answered'.symm, .same (left.trans left'.symm)⟩

end Matched

/-- One turn of the first can be made up for. -/
theorem Routine.Abreast.turn (reliable : host.Reliable) {pool : List (Routine α)} {pool' : List (Routine β)}
    {before before' : World} {request : Request} {next : request.Answer → Routine α}
    {routine : Routine α} {routine' : Routine β} (abreast : Abreast R routine routine')
    (isStep : routine = .step request next) (isThere : pool[i]? = some routine)
    (isThere' : pool'[i]? = some routine')
    (matched : Matched host directory files made pool pool' before.files before'.files) :
    ∃ last' after', Turns host pool' before' (pool'.set i last') after' ∧
      Abreast R (next (request.perform host before).1) last' ∧
      Matched host directory files made (pool.set i (next (request.perform host before).1))
        (pool'.set i last') (request.perform host before).2.files after'.files := by
  induction abreast generalizing pool' before' with
  | done | panic => cases isStep
  | step onward =>
    cases isStep
    obtain ⟨answered, still⟩ := matched.step reliable isThere isThere'
    refine ⟨_, _, .turn isThere' .rest, ?_, still⟩
    exact answered ▸ onward _
  | tell onward =>
    cases isStep
    refine ⟨_, before', ?_, onward, ?_⟩
    · rw [set_of_getElem? isThere']
      exact .rest
    · rw [set_of_getElem? isThere']
      exact matched.tell isThere
  | @tell' _ event next' onward ih =>
    have inside : i < pool'.length := (List.getElem?_eq_some_iff.mp isThere').1
    have told := (matched.symm.tell isThere').symm
    obtain ⟨last', after', turns, abreast, still⟩ := ih isStep isThere (List.getElem?_set_self inside) told
    rw [List.set_set] at turns still
    exact ⟨last', after', .turn isThere' turns, abreast, still⟩

/-- Whatever turns are taken, they can be made up for. -/
theorem Turns.abreast (reliable : host.Reliable) {pool last : List (Routine α)} {pool' : List (Routine β)}
    {before after before' : World} (turns : Turns host pool before last after)
    (abreast : List.Forall₂ (Routine.Abreast R) pool pool')
    (matched : Matched host directory files made pool pool' before.files before'.files) :
    ∃ last' after', Turns host pool' before' last' after' ∧ List.Forall₂ (Routine.Abreast R) last last' ∧
      Matched host directory files made last last' after.files after'.files := by
  induction turns generalizing pool' before' with
  | rest => exact ⟨pool', before', .rest, abreast, matched⟩
  | turn isThere _ ih =>
    obtain ⟨routine', isThere', one⟩ := getElem?_of_forall₂ abreast isThere
    obtain ⟨next', middle', turn, onward, still⟩ := one.turn reliable rfl isThere isThere' matched
    obtain ⟨last', after', turns, abreast, matched⟩ := ih (forall₂_set abreast onward _) still
    exact ⟨last', after', turn.trans turns, abreast, matched⟩

/-- Where the one have all ended the others can end. -/
theorem exists_ended_of_abreast {pool : List (Routine α)} {pool' : List (Routine β)}
    (abreast : List.Forall₂ (Routine.Abreast R) pool pool') (finished : List.Forall₂ Routine.Ended pool ends)
    (before : World) : ∃ last after ends', Turns host pool' before last after ∧ after.files = before.files ∧
      List.Forall₂ Routine.Ended last ends' ∧ List.Forall₂ (Option.Rel R) ends ends' := by
  induction abreast generalizing ends before with
  | nil =>
    cases finished
    exact ⟨[], before, [], .rest, rfl, .nil, .nil⟩
  | @cons routine routine' rest rest' one _ ih =>
    cases finished with
    | cons ended finished =>
      obtain ⟨ended', related, runs⟩ := one.run_of_ended ended host
      obtain ⟨isEnd, same⟩ := runs before
      have turns : Turns host (routine' :: rest') before (.ofEnd (routine'.run host before).1 :: rest') _ :=
        turns_run (i := 0) routine' host before rfl
      rw [isEnd] at turns
      obtain ⟨last, after, ends', others, same', overs, all⟩ :=
        ih finished ((routine'.run host before).2.unheard before)
      exact ⟨.ofEnd ended' :: last, after, ended' :: ends', turns.trans (others.cons _), same'.trans same,
        .cons (Routine.ended_ofEnd ended') overs, .cons related all⟩

end Directory

section Groups

variable {R : Except Failure α → Except Failure β → Prop} {directory : Path} {files made : FileSystem}
  {work : Path → Action α} {work' : Path → Action β}

/-- Results for the same path that belong together. -/
def Paired (R : Except Failure α → Except Failure β → Prop) (entry : Path × Except Failure α)
    (entry' : Path × Except Failure β) : Prop :=
  entry.1 = entry'.1 ∧ R entry.2 entry'.2

theorem paired_zipWith (failures : ∀ failure, R (.error failure) (.error failure))
    {ends : List (Option (Except Failure α))} {ends' : List (Option (Except Failure β))}
    (all : List.Forall₂ (Option.Rel R) ends ends') (group : List Path) :
    List.Forall₂ (Paired R) (List.zipWith Host.resultOf group ends)
      (List.zipWith Host.resultOf group ends') := by
  induction all generalizing group with
  | nil => simp
  | cons related _ ih =>
    cases group with
    | nil => exact .nil
    | cons path group =>
      refine .cons ⟨rfl, ?_⟩ (ih group)
      cases related with
      | some related => exact related
      | none => exact failures _

/-- Two works on the same paths that go on abreast, and on files that differ at most in a directory, can come
to results that belong together, and to the same files up to that directory. -/
theorem Host.Gathers.abreast (reliable : host.Reliable)
    (failures : ∀ failure, R (.error failure) (.error failure))
    (gathers : host.Gathers work parts before results after)
    (abreast : ∀ path ∈ parts.flatten, Routine.Abreast R (work path).run (work' path).run)
    (unaware : ∀ path ∈ parts.flatten, (work path).run.Unaware host directory files made ∧
      (work' path).run.Unaware host directory files made)
    (nearly : Nearly directory files made before.files before'.files) :
    ∃ results' after', host.Gathers work' parts before' results' after' ∧
      List.Forall₂ (Paired R) results results' ∧ Nearly directory files made after.files after'.files := by
  induction gathers generalizing before' with
  | none => exact ⟨[], before', .none, .nil, nearly⟩
  | @group before pool middle ends rest results after group turns finished _ ih =>
    have inGroup : ∀ path ∈ group, path ∈ (group :: rest).flatten := fun path member => by
      simp [member]
    have inRest : ∀ path ∈ rest.flatten, path ∈ (group :: rest).flatten := fun path member => by
      rw [List.flatten_cons]
      exact List.mem_append_right _ member
    have one : List.Forall₂ (Routine.Abreast R) (group.map fun path => (work path).run)
        (group.map fun path => (work' path).run) := by
      rw [List.forall₂_map_left_iff, List.forall₂_map_right_iff, List.forall₂_same]
      exact fun path member => abreast path (inGroup path member)
    have matched : Matched host directory files made (group.map fun path => (work path).run)
        (group.map fun path => (work' path).run) before.files before'.files := by
      cases nearly with
      | same same => exact .same same
      | early unmade isOne isOther =>
        refine .early unmade isOne isOther ?_ ?_ <;> rw [List.forall_mem_map]
        · exact fun path member => (unaware path (inGroup path member)).1
        · exact fun path member => (unaware path (inGroup path member)).2
    obtain ⟨last, middle', turns', left, still⟩ := turns.abreast reliable one matched
    obtain ⟨last', stopped, ends', onward, same, over', all⟩ := exists_ended_of_abreast left finished middle'
    obtain ⟨results', after', gathers', paired, nearly'⟩ := ih
      (fun path member => abreast path (inRest path member))
      (fun path member => unaware path (inRest path member)) (same ▸ still.nearly)
    exact ⟨_, after', .group (turns'.trans onward) over' gathers',
      List.rel_append (paired_zipWith failures all group) paired, nearly'⟩

end Groups

end Colorization
