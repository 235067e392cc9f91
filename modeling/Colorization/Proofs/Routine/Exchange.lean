import Colorization.Proofs.Routine.Keeps

/-! Workers that can be exchanged for others: as long as the files are what all workers together keep
them, both ask for the same and come to the same end. -/
namespace Colorization

/-- The routines cannot be told apart where the files are as promised. -/
inductive Routine.Tallies (host : Host) (holds : FileSystem → Prop) : Routine α → Routine α → Prop where
  | done : Tallies host holds (.done value) (.done value)
  | panic : Tallies host holds .panic .panic
  | step {next next' : request.Answer → Routine α} :
      (∀ world, holds world.files → Tallies host holds (next (request.perform host world).1)
        (next' (request.perform host world).1)) →
      Tallies host holds (.step request next) (.step request next')

variable {host : Host} {holds : FileSystem → Prop} {before after : World}

namespace Routine

@[refl] theorem Tallies.refl (routine : Routine α) : routine.Tallies host holds routine := by
  induction routine with
  | done => exact .done
  | panic => exact .panic
  | step request next ih => exact .step fun world _ => ih _

theorem Ended.of_tallies {routine routine' : Routine α} (ended : routine.Ended result)
    (tallies : routine.Tallies host holds routine') : routine'.Ended result := by
  cases ended with
  | done =>
    cases tallies
    exact .done
  | panic =>
    cases tallies
    exact .panic

/-- What only looks cannot be told apart from what it tallies with. -/
theorem Tallies.run {routine routine' : Routine α} (tallies : routine.Tallies host holds routine')
    (still : routine'.Still) (kept : holds before.files) : routine.run host before = routine'.run host before := by
  induction tallies generalizing before with
  | done | panic => rfl
  | step _ ih => exact ih before kept (still.2 _) (still.1.files host before ▸ kept)

end Routine

section Turns

variable {κ σ : Type} [DecidableEq κ] {Inv : (κ → σ) → FileSystem → Prop} {post : κ → Option α → σ → Prop}
  {keys : List κ} {hands : κ → σ} {pool pool' last : List (Routine α)}

/-- The others take the same turns. -/
theorem Turns.exchange (promised : ∀ hands files, Inv hands files → holds files)
    (turns : Turns host pool before last after) (crew : Crew host Inv post keys pool hands)
    (distinct : keys.Nodup) (kept : Inv hands before.files)
    (tally : List.Forall₂ (Routine.Tallies host holds) pool pool') :
    ∃ last', Turns host pool' before last' after ∧ List.Forall₂ (Routine.Tallies host holds) last last' := by
  induction turns generalizing hands pool' with
  | rest => exact ⟨pool', .rest, tally⟩
  | @turn _ i _ _ world _ _ isThere _ ih =>
    obtain ⟨key, -, keeps, onward⟩ := crew.turn distinct isThere
    obtain ⟨hand', kept', keeps'⟩ := keeps hands _ kept rfl
    obtain ⟨routine', isThere', one⟩ := getElem?_of_forall₂ tally isThere
    cases one with
    | step next =>
      have tally' := forall₂_set tally (next world (promised _ _ kept)) i
      obtain ⟨last', turns', tallies⟩ := ih (onward _ hand' keeps') kept' tally'
      exact ⟨last', .turn isThere' turns', tallies⟩

end Turns

theorem forall₂_ended_of_tallies {pool pool' : List (Routine α)}
    (ended : List.Forall₂ Routine.Ended pool ends) (tally : List.Forall₂ (Routine.Tallies host holds) pool pool') :
    List.Forall₂ Routine.Ended pool' ends := by
  induction ended generalizing pool' with
  | nil =>
    cases tally
    exact .nil
  | cons first _ ih =>
    cases tally with
    | cons one rest => exact .cons (first.of_tallies one) (ih rest)

/-- All groups of workers can be exchanged for others. -/
theorem Host.Gathers.exchange {σ : Type} {Inv : (Nat → σ) → FileSystem → Prop} {idle : σ}
    {work work' : Path → Action α} {parts : List (List Path)}
    (promised : ∀ hands files, Inv hands files → holds files)
    (gathers : host.Gathers work parts before results after)
    (keeps : ∀ group ∈ parts, ∀ path ∈ group, ∀ key < group.length,
      (work path).run.Keeps host Inv key (fun _ hand => hand = idle) idle)
    (tally : ∀ path, (work path).run.Tallies host holds (work' path).run)
    (kept : Inv (fun _ => idle) before.files) : host.Gathers work' parts before results after := by
  induction gathers with
  | none => exact .none
  | @group _ _ _ _ _ _ _ group turns ended _ ih =>
    have idles : ∀ path ∈ group, ∀ key < group.length, (work path).Idles host Inv idle key fun _ => True :=
      fun path member key less =>
        (keeps group List.mem_cons_self path member key less).mono fun _ _ same => ⟨same, trivial⟩
    have pools : List.Forall₂ (Routine.Tallies host holds) (group.map fun path => (work path).run)
        (group.map fun path => (work' path).run) := by
      rw [List.forall₂_map_left_iff, List.forall₂_map_right_iff, List.forall₂_same]
      exact fun path _ => tally path
    obtain ⟨last', turns', tallies⟩ := turns.exchange promised (Crew.begun idles) List.nodup_range kept pools
    obtain ⟨kept', -⟩ := turns.idles ended idles kept
    have rest := ih (fun group member => keeps group (List.mem_cons_of_mem _ member)) kept'
    exact .group turns' (forall₂_ended_of_tallies ended tallies) rest

end Colorization
