import Colorization.Proofs.Routine.Interleaving
import Colorization.Proofs.Routine.Rules
import Colorization.Proofs.Routine.Still
import Mathlib.Data.List.Nodup
import Mathlib.Logic.Function.Basic

/-! Workers that share files. Each has a hand, which tells what it has done so far, and an
invariant of all hands and the files is kept by every request of every worker. Between its own
requests a worker may rely on the invariant and on its own hand, and on nothing else. -/
namespace Colorization

section

variable {κ σ : Type} [DecidableEq κ]

/-- The worker keeps the invariant to its end, and ends as promised. -/
def Routine.Keeps (host : Host) (Inv : (κ → σ) → FileSystem → Prop) (key : κ)
    (post : Option α → σ → Prop) : Routine α → σ → Prop
  | .done value, hand => post (some value) hand
  | .panic, hand => post none hand
  | .step request next, hand => ∀ hands world, Inv hands world.files → hands key = hand →
      ∃ hand', Inv (Function.update hands key hand') (request.perform host world).2.files ∧
        Keeps host Inv key post (next (request.perform host world).1) hand'

variable {host : Host} {Inv : (κ → σ) → FileSystem → Prop} {key : κ} {hand : σ} {before after : World}

/-- A hand that does not move. -/
theorem kept_unmoved {hands : κ → σ} (kept : Inv hands files) (mine : hands key = hand) :
    Inv (Function.update hands key hand) files := by
  rw [← mine, Function.update_eq_self]
  exact kept

/-- The rule that a worker keeps to. -/
def Rule.keeping (host : Host) (Inv : (κ → σ) → FileSystem → Prop) (key : κ) : Rule σ where
  allows request promise hand := ∀ hands world, Inv hands world.files → hands key = hand →
    ∃ hand', Inv (Function.update hands key hand') (request.perform host world).2.files ∧
      promise (request.perform host world).1 hand'
  mono weaker allowed hands world kept mine := by
    obtain ⟨hand', kept', promised⟩ := allowed hands world kept mine
    exact ⟨hand', kept', weaker _ _ promised⟩

theorem Routine.keeps_iff_obeys {routine : Routine α} {post : Option α → σ → Prop} :
    routine.Keeps host Inv key post hand ↔ routine.Obeys (.keeping host Inv key) post hand := by
  induction routine generalizing hand with
  | done value => exact .rfl
  | panic => exact .rfl
  | step request next ih => simp only [Keeps, Obeys, Rule.keeping, ih]

namespace Routine.Keeps

theorem mono {routine : Routine α} {post post' : Option α → σ → Prop}
    (keeps : routine.Keeps host Inv key post hand)
    (weaker : ∀ ended hand, post ended hand → post' ended hand) :
    routine.Keeps host Inv key post' hand := by
  rw [keeps_iff_obeys] at keeps ⊢
  exact keeps.mono weaker

theorem bind {routine : Routine α} {next : α → Routine β} {post : Option β → σ → Prop}
    (keeps : routine.Keeps host Inv key (fun ended hand =>
      match ended with
      | some value => (next value).Keeps host Inv key post hand
      | none => post none hand) hand) :
    (routine >>= next).Keeps host Inv key post hand := by
  simp only [keeps_iff_obeys] at keeps ⊢
  exact keeps.bind

/-- Alone, from its beginning to its end. -/
theorem run {routine : Routine α} {post : Option α → σ → Prop} {hands : κ → σ}
    (keeps : routine.Keeps host Inv key post (hands key)) (kept : Inv hands before.files) :
    ∃ hand, Inv (Function.update hands key hand) (routine.run host before).2.files ∧
      post (routine.run host before).1 hand := by
  induction routine generalizing hands before with
  | done value | panic =>
    refine ⟨hands key, ?_, keeps⟩
    rw [Function.update_eq_self]
    exact kept
  | step request next ih =>
    obtain ⟨hand', kept', keeps'⟩ := keeps hands before kept rfl
    rw [← Function.update_self key hand' hands] at keeps'
    obtain ⟨hand, kept, ended⟩ := ih _ keeps' kept'
    rw [Function.update_idem] at kept
    exact ⟨hand, kept, ended⟩

end Routine.Keeps

namespace Routine

/-- One request, whatever is answered. -/
theorem keeps_ask {request : Request} {post : Option request.Answer → σ → Prop}
    (keeps : ∀ hands world, Inv hands world.files → hands key = hand →
      ∃ hand', Inv (Function.update hands key hand') (request.perform host world).2.files ∧
        post (some (request.perform host world).1) hand') :
    (ask request).Keeps host Inv key post hand :=
  keeps

/-- A request that only looks. -/
theorem keeps_still (request : Request) (still : request.Still) {post : Option request.Answer → σ → Prop}
    (answered : ∀ hands world, Inv hands world.files → hands key = hand →
      post (some (request.perform host world).1) hand) :
    (ask request).Keeps host Inv key post hand := by
  refine keeps_ask fun hands world kept mine => ⟨hand, ?_, answered hands world kept mine⟩
  rw [still.files]
  exact kept_unmoved kept mine

/-- What only looks leaves the hand as it is. -/
theorem Still.keeps {routine : Routine α} (still : routine.Still) {post : Option α → σ → Prop}
    (promised : ∀ ended, post ended hand) : routine.Keeps host Inv key post hand := by
  induction routine with
  | done value => exact promised _
  | panic => exact promised _
  | step request next ih =>
    intro hands world kept mine
    refine ⟨hand, ?_, ih _ (still.2 _)⟩
    rw [still.1.files]
    exact kept_unmoved kept mine

end Routine

namespace Action

open Routine (keeps_iff_obeys)

variable {post : Option (Except Failure α) → σ → Prop}

/-- A failure ends all of it. -/
theorem keeps_bind {action : Action β} {next : β → Action α}
    (keeps : action.run.Keeps host Inv key (fun (ended : Option (Except Failure β)) hand =>
      match ended with
      | some (.ok value) => (next value).run.Keeps host Inv key post hand
      | some (.error failure) => post (some (.error failure)) hand
      | none => post none hand) hand) :
    (action >>= next).run.Keeps host Inv key post hand := by
  simp only [keeps_iff_obeys] at keeps ⊢
  exact obeys_bind keeps

theorem keeps_lift {routine : Routine α} (keeps : routine.Keeps host Inv key
      (fun ended hand => post (ended.map .ok) hand) hand) :
    (liftM routine : Action α).run.Keeps host Inv key post hand := by
  rw [keeps_iff_obeys] at keeps ⊢
  exact obeys_lift keeps

theorem keeps_on {path : Path} {routine : Routine (Except SystemError α)}
    (keeps : routine.Keeps host Inv key
      (fun ended hand => post (ended.map fun answer => answer.mapError (.system path)) hand) hand) :
    (Action.on path routine).run.Keeps host Inv key post hand := by
  rw [keeps_iff_obeys] at keeps ⊢
  exact obeys_on keeps

theorem keeps_tryCatch {action : Action α} {handler : Failure → Action α}
    (keeps : action.run.Keeps host Inv key (fun (ended : Option (Except Failure α)) hand =>
      match ended with
      | some (.error failure) => (handler failure).run.Keeps host Inv key post hand
      | ended => post ended hand) hand) :
    (tryCatch action handler).run.Keeps host Inv key post hand := by
  simp only [keeps_iff_obeys] at keeps ⊢
  exact obeys_tryCatch keeps

end Action

variable {post : κ → Option α → σ → Prop} {keys : List κ} {pool : List (Routine α)} {hands : κ → σ}

/-- Some workers, each at some point of its work. -/
def Crew (host : Host) (Inv : (κ → σ) → FileSystem → Prop) (post : κ → Option α → σ → Prop)
    (keys : List κ) (pool : List (Routine α)) (hands : κ → σ) : Prop :=
  List.Forall₂ (fun key routine => Routine.Keeps host Inv key (post key) routine (hands key)) keys pool

namespace Crew

/-- What others do with their hands is nothing to the crew. -/
theorem congr (crew : Crew host Inv post keys pool hands)
    (same : ∀ key ∈ keys, hands' key = hands key) : Crew host Inv post keys pool hands' := by
  induction crew with
  | nil => exact .nil
  | cons keeps _ ih =>
    refine .cons ?_ (ih fun other member => same other (List.mem_cons_of_mem _ member))
    rw [same _ List.mem_cons_self]
    exact keeps

/-- A turn is that of one worker, and the crew goes on with what is left of its work. -/
theorem turn (crew : Crew host Inv post keys pool hands) (distinct : keys.Nodup)
    (isThere : pool[i]? = some routine) :
    ∃ key ∈ keys, routine.Keeps host Inv key (post key) (hands key) ∧
      ∀ routine' hand', routine'.Keeps host Inv key (post key) hand' →
        Crew host Inv post keys (pool.set i routine') (Function.update hands key hand') := by
  induction crew generalizing i with
  | nil => cases isThere
  | @cons key first keys pool keeps rest ih =>
    rw [List.nodup_cons] at distinct
    cases i with
    | zero =>
      cases isThere
      refine ⟨key, List.mem_cons_self, keeps, fun routine' hand' onward => .cons ?_ ?_⟩
      · rw [Function.update_self]
        exact onward
      · refine Crew.congr rest fun other member => Function.update_of_ne ?_ ..
        rintro rfl
        exact distinct.1 member
    | succ i =>
      obtain ⟨other, member, keeps', onward⟩ := ih distinct.2 isThere
      refine ⟨other, List.mem_cons_of_mem _ member, keeps', fun routine' hand' keeps'' => .cons ?_ ?_⟩
      · have differs : key ≠ other := by
          rintro rfl
          exact distinct.1 member
        rw [Function.update_of_ne differs]
        exact keeps
      · exact onward routine' hand' keeps''

theorem ended (crew : Crew host Inv post keys pool hands) (ends : List.Forall₂ Routine.Ended pool results) :
    List.Forall₂ (fun key result => post key result (hands key)) keys results := by
  induction crew generalizing results with
  | nil =>
    cases ends
    exact .nil
  | cons keeps _ ih =>
    cases ends with
    | cons ended rest =>
      refine .cons ?_ (ih rest)
      cases ended <;> exact keeps

end Crew

/-- Any number of turns keep the invariant and leave the hands of others as they are. -/
theorem Turns.keeps {last : List (Routine α)} (turns : Turns host pool before last after)
    (crew : Crew host Inv post keys pool hands) (distinct : keys.Nodup)
    (kept : Inv hands before.files) :
    ∃ hands', Inv hands' after.files ∧ Crew host Inv post keys last hands' ∧
      ∀ other ∉ keys, hands' other = hands other := by
  induction turns generalizing hands with
  | rest => exact ⟨hands, kept, crew, fun _ _ => rfl⟩
  | turn isThere _ ih =>
    obtain ⟨key, member, keeps, onward⟩ := crew.turn distinct isThere
    obtain ⟨hand', kept', keeps'⟩ := keeps hands _ kept rfl
    obtain ⟨hands', kept'', crew', others⟩ := ih (onward _ hand' keeps') kept'
    refine ⟨hands', kept'', crew', fun other outside => ?_⟩
    rw [others other outside, Function.update_of_ne]
    rintro rfl
    exact outside member

end

theorem forall₂_resultOf {promise : Path → Option (Except Failure α) → Prop} {group : List Path}
    (ended : List.Forall₂ promise group ends) :
    List.Forall₂ (fun path entry => ∃ ended, entry = Host.resultOf path ended ∧ promise path ended)
      group (List.zipWith Host.resultOf group ends) := by
  induction ended with
  | nil => exact .nil
  | cons first _ ih => exact .cons ⟨_, rfl, first⟩ ih

/-- Where no path is there twice the results are those of a function. -/
theorem exists_map_resultOf {promise : Path → Option (Except Failure α) → Prop} {paths : List Path}
    (distinct : paths.Nodup) (entries : List.Forall₂ (fun path entry => ∃ ended,
      entry = Host.resultOf path ended ∧ promise path ended) paths results) :
    ∃ ended : Path → Option (Except Failure α),
      results = paths.map (fun path => Host.resultOf path (ended path)) ∧
        ∀ path ∈ paths, promise path (ended path) := by
  induction entries with
  | nil => exact ⟨fun _ => none, rfl, nofun⟩
  | @cons path entry paths results first _ ih =>
    obtain ⟨outside, distinct⟩ := List.nodup_cons.mp distinct
    obtain ⟨last, rfl, promised⟩ := first
    obtain ⟨ended, rfl, all⟩ := ih distinct
    have others : ∀ other ∈ paths, Function.update ended path last other = ended other := by
      intro other member
      refine Function.update_of_ne ?_ ..
      rintro rfl
      exact outside member
    refine ⟨Function.update ended path last, ?_, fun other member => ?_⟩
    · rw [List.map_cons, Function.update_self]
      exact congrArg _ (List.map_congr_left fun other member => by rw [others other member])
    · rcases List.mem_cons.mp member with rfl | later
      · rw [Function.update_self]
        exact promised
      · rw [others other later]
        exact all other later

/-- All results of workers in groups, each with the hand that its worker has in the end. -/
theorem Host.Gathers.keeps {host : Host} {σ : Type} {Inv : (Path → σ) → FileSystem → Prop}
    {work : Path → Action α} {post : Path → Option (Except Failure α) → σ → Prop}
    {hands : Path → σ} {before after : World} {parts : List (List Path)}
    (gathers : host.Gathers work parts before results after)
    (distinct : parts.flatten.Nodup) (kept : Inv hands before.files)
    (keeps : ∀ path ∈ parts.flatten, (work path).run.Keeps host Inv path (post path) (hands path)) :
    ∃ hands', Inv hands' after.files ∧
      List.Forall₂ (fun path entry => ∃ ended, entry = Host.resultOf path ended ∧
        post path ended (hands' path)) parts.flatten results ∧
      ∀ other ∉ parts.flatten, hands' other = hands other := by
  induction gathers generalizing hands with
  | none => exact ⟨hands, kept, .nil, fun _ _ => rfl⟩
  | @group _ _ _ _ _ _ _ group turns ended _ ih =>
    rw [List.flatten_cons, List.nodup_append] at distinct
    obtain ⟨distinctFirst, distinctRest, apart⟩ := distinct
    have crew : Crew host Inv post group (group.map fun path => (work path).run) hands := by
      rw [Crew, List.forall₂_map_right_iff, List.forall₂_same]
      exact fun path member => keeps path (List.mem_append_left _ member)
    obtain ⟨hands', kept', crew', others⟩ := turns.keeps crew distinctFirst kept
    obtain ⟨hands'', kept'', entries, others'⟩ := ih distinctRest kept' fun path member => by
      rw [others path fun inside => apart path inside path member rfl]
      exact keeps path (List.mem_append_right _ member)
    refine ⟨hands'', kept'', ?_, fun other outside => ?_⟩
    · have first := crew'.congr fun path member =>
        others' path fun inside => apart path member path inside rfl
      exact List.rel_append (forall₂_resultOf (first.ended ended)) entries
    · rw [List.flatten_cons, List.mem_append, not_or] at outside
      rw [others' other outside.2, others other outside.1]

section Idle

/-! A path may be there more than once, so the workers of a group are told apart by their numbers. -/

variable {host : Host} {σ : Type} {Inv : (Nat → σ) → FileSystem → Prop} {idle : σ} {work : Path → Action α}
  {post : Path → Option (Except Failure α) → Prop} {before after : World} {group : List Path}
  {parts : List (List Path)}

/-- The worker has nothing in its hand in the end. -/
def Action.Idles (host : Host) (Inv : (Nat → σ) → FileSystem → Prop) (idle : σ) (key : Nat)
    (post : Option (Except Failure α) → Prop) (action : Action α) : Prop :=
  action.run.Keeps host Inv key (fun ended hand => hand = idle ∧ post ended) idle

/-- A group that has yet to begin. -/
theorem Crew.begun (idles : ∀ path ∈ group, ∀ key < group.length, (work path).Idles host Inv idle key (post path)) :
    Crew host Inv (fun key ended hand => hand = idle ∧ ∀ path, group[key]? = some path → post path ended)
      (List.range group.length) (group.map fun path => (work path).run) fun _ => idle := by
  refine List.forall₂_iff_get.mpr ⟨by simp, fun i inKeys inGroup => ?_⟩
  have inside : i < group.length := by simpa using inKeys
  simp only [List.get_eq_getElem, List.getElem_range, List.getElem_map]
  refine Routine.Keeps.mono (idles _ (List.getElem_mem inside) i inside) fun ended hand promised => ?_
  refine ⟨promised.1, fun path isThere => ?_⟩
  rw [List.getElem?_eq_getElem inside] at isThere
  cases isThere
  exact promised.2

/-- A group that is done. -/
theorem Turns.idles {pool : List (Routine (Except Failure α))} {ends : List (Option (Except Failure α))}
    (turns : Turns host (group.map fun path => (work path).run) before pool after)
    (ended : List.Forall₂ Routine.Ended pool ends)
    (idles : ∀ path ∈ group, ∀ key < group.length, (work path).Idles host Inv idle key (post path))
    (kept : Inv (fun _ => idle) before.files) :
    Inv (fun _ => idle) after.files ∧ List.Forall₂ post group ends := by
  obtain ⟨hands, kept', crew, others⟩ := turns.keeps (Crew.begun idles) List.nodup_range kept
  obtain ⟨same, each⟩ := List.forall₂_iff_get.mp (crew.ended ended)
  have lengths : group.length = ends.length := by simpa using same
  have told : ∀ key (inGroup : key < group.length) (inEnds : key < ends.length),
      hands key = idle ∧ post group[key] ends[key] := by
    intro key inGroup inEnds
    have promised := each key (by simpa using inGroup) inEnds
    simp only [List.get_eq_getElem, List.getElem_range] at promised
    exact ⟨promised.1, promised.2 _ (List.getElem?_eq_getElem inGroup)⟩
  have back : hands = fun _ => idle := by
    funext key
    by_cases member : key < group.length
    · exact (told key member (lengths ▸ member)).1
    · exact others key (by simpa using member)
  exact ⟨back ▸ kept', List.forall₂_iff_get.mpr ⟨lengths, fun key inGroup inEnds => (told key inGroup inEnds).2⟩⟩

/-- Workers that have nothing in their hands when their group is done. -/
theorem Host.Gathers.idles (gathers : host.Gathers work parts before results after)
    (idles : ∀ group ∈ parts, ∀ path ∈ group, ∀ key < group.length,
      (work path).Idles host Inv idle key (post path))
    (kept : Inv (fun _ => idle) before.files) :
    Inv (fun _ => idle) after.files ∧ List.Forall₂ (fun path entry => ∃ ended,
      entry = Host.resultOf path ended ∧ post path ended) parts.flatten results := by
  induction gathers with
  | none => exact ⟨kept, .nil⟩
  | group turns ended _ ih =>
    obtain ⟨kept', promised⟩ := turns.idles ended (idles _ List.mem_cons_self) kept
    obtain ⟨kept'', rest⟩ := ih (fun group member => idles group (List.mem_cons_of_mem _ member)) kept'
    exact ⟨kept'', List.rel_append (forall₂_resultOf promised) rest⟩

theorem Host.Gathers.keeps_idle (gathers : host.Gathers work parts before results after)
    (keeps : ∀ group ∈ parts, ∀ path ∈ group, ∀ key < group.length,
      (work path).run.Keeps host Inv key (fun _ hand => hand = idle) idle)
    (kept : Inv (fun _ => idle) before.files) : Inv (fun _ => idle) after.files := by
  have idles : ∀ group ∈ parts, ∀ path ∈ group, ∀ key < group.length,
      (work path).Idles host Inv idle key fun _ => True := fun group isGroup path member key less =>
    (keeps group isGroup path member key less).mono fun _ _ same => ⟨same, trivial⟩
  exact (gathers.idles idles kept).1

end Idle

end Colorization
