import Colorization.Proofs.Batch
import Colorization.Proofs.Path.Order
import Mathlib.Data.Finset.Card

/-! Sources of one output. A later source is warned of with the earliest one, and an output is shared
from its second source on. -/
namespace Colorization

/-- What each path of a list comes to, given the paths before it, in the order of the list. -/
def eachAfter (f : List Path → Path → Option β) (paths : List Path) : List β :=
  (List.range paths.length).filterMap fun i => paths[i]?.bind (f (paths.take i))

theorem eachAfter_concat (f : List Path → Path → Option β) (paths : List Path) (last : Path) :
    eachAfter f (paths ++ [last]) = eachAfter f paths ++ (f paths last).toList := by
  have before : ∀ i ∈ List.range paths.length,
      (paths ++ [last])[i]?.bind (f ((paths ++ [last]).take i)) = paths[i]?.bind (f (paths.take i)) := by
    intro i member
    have less := List.mem_range.mp member
    rw [List.getElem?_append_left less, List.take_append_of_le_length less.le]
  rw [eachAfter, List.length_append, List.length_singleton, List.range_succ, List.filterMap_append,
    List.filterMap_congr before, eachAfter]
  cases found : f paths last <;> simp [found]

variable {directory : Path} {paths done rest : List Path} {claimed : List (Path × Path)} {path last output other : Path} {clash : Clash}

/-- How many of the paths have this output. -/
def claimants (directory : Path) (paths : List Path) (output : Path) : Nat :=
  paths.countP fun path => (directory.baseline path).same output

/-- A path whose output has been claimed, with the earliest one that claims it. -/
def laterClaim (directory : Path) (earlier : List Path) (path : Path) : Option Clash :=
  (earlier.find? fun first => (directory.baseline first).same (directory.baseline path)).map fun first =>
    ⟨first, path, directory.baseline path⟩

/-- The output of a path that is the second to claim it. -/
def secondClaim (directory : Path) (earlier : List Path) (path : Path) : Option Path :=
  if claimants directory earlier (directory.baseline path) = 1 then some (directory.baseline path) else none

theorem claimants_congr (alike : output.same other = true) :
    claimants directory paths output = claimants directory paths other :=
  List.countP_congr fun path _ => by rw [Path.same_right_congr alike]

theorem claimants_concat : claimants directory (paths ++ [last]) output =
    claimants directory paths output + if (directory.baseline last).same output then 1 else 0 := by
  simp [claimants, List.countP_append, List.countP_singleton]

theorem laterClaim_eq_none_iff : laterClaim directory paths path = none ↔
    claimants directory paths (directory.baseline path) = 0 := by
  rw [laterClaim, claimants, Option.map_eq_none_iff, List.find?_eq_none, List.countP_eq_zero]

theorem claimants_ne_zero (found : laterClaim directory paths path = some clash) :
    claimants directory paths (directory.baseline path) ≠ 0 := fun none => by
  rw [laterClaim_eq_none_iff.mpr none] at found
  cases found

theorem laterClaim_eq_some (found : laterClaim directory paths path = some clash) :
    clash.output = directory.baseline path := by
  obtain ⟨first, isFirst, same⟩ := Option.map_eq_some_iff.mp found
  rw [← same]

namespace Clash

/-- The outputs that are claimed are those of the paths so far, each by the earliest of them. -/
def Records (directory : Path) (claimed : List (Path × Path)) (done : List Path) : Prop :=
  ∀ output, (claimed.find? fun claim => claim.1.same output).map (·.2) =
    done.find? fun earlier => (directory.baseline earlier).same output

theorem Records.later (records : Records directory claimed done)
    (found : claimed.find? (fun claim => claim.1.same (directory.baseline path)) = some claim) :
    Records directory claimed (done ++ [path]) := by
  intro output
  have before := records (directory.baseline path)
  rw [found, Option.map_some] at before
  rw [records output, List.find?_append]
  by_cases alike : (directory.baseline path).same output = true
  · have same : (fun earlier => (directory.baseline earlier).same output) =
        fun earlier => (directory.baseline earlier).same (directory.baseline path) := by
      funext earlier
      exact (Path.same_right_congr alike _).symm
    rw [same, ← before]
    rfl
  · simp [alike]

theorem Records.first (records : Records directory claimed done) :
    Records directory (claimed ++ [(directory.baseline path, path)]) (done ++ [path]) := by
  intro output
  rw [List.find?_append, List.find?_append, ← records output]
  cases claimed.find? fun claim => claim.1.same output <;>
    cases alike : (directory.baseline path).same output <;> simp [alike]

theorem eachAfter_append_among (records : Records directory claimed done) :
    eachAfter (laterClaim directory) (done ++ rest) =
      eachAfter (laterClaim directory) done ++ among directory claimed rest := by
  induction rest generalizing done claimed with
  | nil => simp [among]
  | cons path rest ih =>
    rw [List.append_cons, among]
    have before := records (directory.baseline path)
    cases found : claimed.find? fun claim => claim.1.same (directory.baseline path) with
    | none =>
      have none : laterClaim directory done path = none := by
        rw [found] at before
        rw [laterClaim, ← before]
        rfl
      rw [ih records.first, eachAfter_concat, none]
      simp
    | some claim =>
      have later : laterClaim directory done path = some ⟨claim.2, path, directory.baseline path⟩ := by
        rw [found] at before
        rw [laterClaim, ← before]
        rfl
      rw [ih (records.later found), eachAfter_concat, later]
      simp

/-- Each path behind the first of its output clashes with it. -/
theorem all_eq (directory : Path) (paths : List Path) :
    all directory paths = eachAfter (laterClaim directory) paths := by
  have nothing : Records directory [] [] := fun _ => rfl
  have whole : eachAfter (laterClaim directory) ([] ++ paths) = [] ++ among directory [] paths :=
    eachAfter_append_among nothing
  exact whole.symm

theorem all_concat : all directory (paths ++ [last]) =
    all directory paths ++ (laterClaim directory paths last).toList := by
  rw [all_eq, all_eq, eachAfter_concat]

/-- There are as many warnings as there are paths besides the first of each output. -/
theorem length_all (directory : Path) (paths : List Path) :
    (all directory paths).length + (paths.map fun path => (directory.baseline path).components).toFinset.card =
      paths.length := by
  induction paths using List.reverseRecOn with
  | nil => rfl
  | append_singleton paths last ih =>
    have isNew : laterClaim directory paths last = none ↔ (directory.baseline last).components ∉
        (paths.map fun path => (directory.baseline path).components).toFinset := by
      simp [laterClaim, Path.same]
    have grown : ((paths ++ [last]).map fun path => (directory.baseline path).components).toFinset =
        insert (directory.baseline last).components
          (paths.map fun path => (directory.baseline path).components).toFinset := by
      ext output
      simp [eq_comm]
    rw [all_concat, grown, List.length_append, List.length_append, List.length_singleton]
    cases found : laterClaim directory paths last with
    | none =>
      rw [Finset.card_insert_of_notMem (isNew.mp found), Option.toList_none, List.length_nil]
      omega
    | some clash =>
      have inside := Decidable.not_not.mp (mt isNew.mpr (by simp [found]))
      rw [Finset.insert_eq_of_mem inside, Option.toList_some, List.length_singleton]
      omega

end Clash

/-- An output that is not among those told of already. -/
def addShared (outputs : List Path) (clash : Clash) : List Path :=
  if outputs.any clash.output.same then outputs else outputs ++ [clash.output]

theorem sharedOutputs_concat : sharedOutputs directory (paths ++ [last]) =
    (laterClaim directory paths last).toList.foldl addShared (sharedOutputs directory paths) := by
  rw [sharedOutputs, Clash.all_concat, List.foldl_append]
  rfl

theorem sharedOutputs_of_first (first : laterClaim directory paths last = none) :
    sharedOutputs directory (paths ++ [last]) = sharedOutputs directory paths := by
  rw [sharedOutputs_concat, first]
  rfl

theorem sharedOutputs_of_later (later : laterClaim directory paths last = some clash) :
    sharedOutputs directory (paths ++ [last]) = addShared (sharedOutputs directory paths) clash := by
  rw [sharedOutputs_concat, later]
  rfl

theorem any_addShared {outputs : List Path} {clash : Clash} : (addShared outputs clash).any output.same = true ↔
    outputs.any output.same = true ∨ output.same clash.output = true := by
  unfold addShared
  split
  next there =>
    refine ⟨.inl, fun either => either.elim id fun alike => ?_⟩
    rwa [Path.same_congr alike]
  next => simp

/-- An output is shared from its second source on. -/
theorem any_sharedOutputs : (sharedOutputs directory paths).any output.same = true ↔
    2 ≤ claimants directory paths output := by
  induction paths using List.reverseRecOn with
  | nil => simp [sharedOutputs, Clash.all, Clash.among, claimants]
  | append_singleton paths last ih =>
    rw [claimants_concat]
    cases found : laterClaim directory paths last with
    | none =>
      have none := laterClaim_eq_none_iff.mp found
      rw [sharedOutputs_of_first found, ih]
      split
      next alike =>
        rw [claimants_congr alike] at none
        omega
      next => omega
    | some clash =>
      have some := claimants_ne_zero found
      rw [sharedOutputs_of_later found, any_addShared, ih, laterClaim_eq_some found, Path.same_comm]
      split
      next alike =>
        rw [claimants_congr alike] at some
        simp only [alike, or_true, true_iff]
        omega
      next apart => simp [apart]

theorem pairwise_sharedOutputs (directory : Path) (paths : List Path) :
    (sharedOutputs directory paths).Pairwise fun one other => one.same other = false := by
  induction paths using List.reverseRecOn with
  | nil => exact .nil
  | append_singleton paths last ih =>
    cases found : laterClaim directory paths last with
    | none => rwa [sharedOutputs_of_first found]
    | some clash =>
      rw [sharedOutputs_of_later found, addShared]
      split
      · exact ih
      next missing =>
        refine List.pairwise_append.mpr ⟨ih, List.pairwise_singleton _ _, fun one member other isLast => ?_⟩
        cases List.mem_singleton.mp isLast
        rw [Path.same_comm]
        exact Bool.eq_false_iff.mpr fun alike => missing (List.any_eq_true.mpr ⟨one, member, alike⟩)

/-- The shared outputs stand in the order of the paths that are second to claim them. -/
theorem sharedOutputs_eq (directory : Path) (paths : List Path) :
    sharedOutputs directory paths = eachAfter (secondClaim directory) paths := by
  induction paths using List.reverseRecOn with
  | nil => rfl
  | append_singleton paths last ih =>
    rw [eachAfter_concat, ← ih, secondClaim]
    have isShared := @any_sharedOutputs directory paths (directory.baseline last)
    cases found : laterClaim directory paths last with
    | none => simp [sharedOutputs_of_first found, laterClaim_eq_none_iff.mp found]
    | some clash =>
      have some := claimants_ne_zero found
      rw [sharedOutputs_of_later found, addShared, laterClaim_eq_some found]
      split
      next there =>
        have many := isShared.mp there
        rw [if_neg (by omega)]
        simp
      next missing =>
        have few := mt isShared.mpr missing
        rw [if_pos (by omega)]
        rfl

example : sharedOutputs ⟨"out"⟩ [⟨"a/x.js"⟩, ⟨"b/x.js"⟩, ⟨"y.js"⟩, ⟨"c/x.js"⟩, ⟨"y.js"⟩] =
    [⟨"out/x_js.json"⟩, ⟨"out/y_js.json"⟩] := rfl

/-- Nothing is shared exactly if the outputs are different. -/
theorem sharedOutputs_eq_nil_iff : sharedOutputs directory paths = [] ↔
    paths.Pairwise fun one other => (directory.baseline one).same (directory.baseline other) = false := by
  induction paths using List.reverseRecOn with
  | nil => exact iff_of_true rfl .nil
  | append_singleton paths last ih =>
    have first : laterClaim directory paths last = none ↔
        ∀ path ∈ paths, (directory.baseline path).same (directory.baseline last) = false := by
      rw [laterClaim_eq_none_iff, claimants, List.countP_eq_zero]
      simp only [Bool.not_eq_true]
    rw [List.pairwise_append, ← ih]
    simp only [List.pairwise_singleton, List.mem_singleton, forall_eq, true_and, ← first]
    cases found : laterClaim directory paths last with
    | none => simp [sharedOutputs_of_first found]
    | some clash =>
      rw [sharedOutputs_of_later found, addShared]
      simp only [reduceCtorEq, and_false, iff_false]
      split
      next there =>
        intro none
        simp [none] at there
      next => simp

end Colorization
