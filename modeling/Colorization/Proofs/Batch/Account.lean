import Colorization.Proofs.Batch
import Colorization.Proofs.Path.Order
import Colorization.Proofs.Routine.Requests

/-! What the report of a batch tells of its results: all failures in their order, and for each path
that was captured the last of its captures, under the spelling of the first. -/
namespace Colorization

open Colorization.Action (Returns Fails)

namespace Captures

variable {captures rest : Captures} {first entry : Path × Capture} {path : Path} {capture : Capture}

/-- The captures stand in the order of their paths, so that each path is there once. -/
def Ordered (captures : Captures) : Prop :=
  captures.Pairwise fun one other => one.1.components < other.1.components

/-- A path that comes no later than the first is none of the others. -/
theorem apart_of_not_after (ordered : Ordered (first :: rest))
    (notAfter : path.components = first.1.components ∨ path.components < first.1.components)
    (member : entry ∈ rest) : path.same entry.1 = false := by
  have later : first.1.components < entry.1.components := (List.pairwise_cons.mp ordered).1 entry member
  apply Path.same_eq_false_of_lt
  rcases notAfter with same | less
  · rwa [same]
  · exact List.lt_trans less later

/-- Inserting leaves other paths as they are, and a path that is there keeps its spelling. -/
theorem mem_insert_iff (ordered : captures.Ordered) : entry ∈ insert path capture captures ↔
    entry ∈ captures ∧ path.same entry.1 = false ∨
      entry.2 = capture ∧ ((∃ former, (entry.1, former) ∈ captures ∧ path.same entry.1 = true) ∨
        entry.1 = path ∧ ∀ other ∈ captures, path.same other.1 = false) := by
  induction captures with
  | nil => simp [insert, Prod.ext_iff, and_comm]
  | cons first rest ih =>
    have ih := ih ordered.tail
    -- the path is the first one, comes before it, or belongs further on
    by_cases here : path.same first.1 = true
    · have others : ∀ other ∈ rest, path.same other.1 = false := fun other member =>
        apart_of_not_after ordered (.inl (by simpa [Path.same] using here)) member
      rw [insert, if_pos here, List.mem_cons]
      constructor
      · rintro (rfl | member)
        · exact .inr ⟨rfl, .inl ⟨first.2, List.mem_cons_self, here⟩⟩
        · exact .inl ⟨List.mem_cons_of_mem _ member, others entry member⟩
      · rintro (⟨member, apart⟩ | ⟨rfl, ⟨former, member, same⟩ | ⟨-, apart⟩⟩)
        · rcases List.mem_cons.mp member with rfl | member
          · simp [here] at apart
          · exact .inr member
        · rcases List.mem_cons.mp member with isFirst | member
          · exact .inl (by rw [← isFirst])
          · simp [others _ member] at same
        · simp [here] at apart
    have notHere : path.same first.1 = false := Bool.eq_false_iff.mpr here
    rw [insert, if_neg here]
    by_cases before : path.components < first.1.components
    · have all : ∀ other ∈ first :: rest, path.same other.1 = false :=
        List.forall_mem_cons.mpr ⟨notHere, fun other => apart_of_not_after ordered (.inr before)⟩
      rw [if_pos before, List.mem_cons]
      constructor
      · rintro (rfl | member)
        · exact .inr ⟨rfl, .inr ⟨rfl, all⟩⟩
        · exact .inl ⟨member, all entry member⟩
      · rintro (⟨member, -⟩ | ⟨rfl, ⟨former, member, same⟩ | ⟨rfl, -⟩⟩)
        · exact .inr member
        · simp [all _ member] at same
        · exact .inl rfl
    · rw [if_neg before, List.mem_cons, ih]
      constructor
      · rintro (rfl | ⟨member, apart⟩ | ⟨rfl, ⟨former, member, same⟩ | ⟨rfl, apart⟩⟩)
        · exact .inl ⟨List.mem_cons_self, notHere⟩
        · exact .inl ⟨List.mem_cons_of_mem _ member, apart⟩
        · exact .inr ⟨rfl, .inl ⟨former, List.mem_cons_of_mem _ member, same⟩⟩
        · exact .inr ⟨rfl, .inr ⟨rfl, List.forall_mem_cons.mpr ⟨notHere, apart⟩⟩⟩
      · rintro (⟨member, apart⟩ | ⟨rfl, ⟨former, member, same⟩ | ⟨rfl, apart⟩⟩)
        · exact (List.mem_cons.mp member).imp_right fun member => .inl ⟨member, apart⟩
        · rcases List.mem_cons.mp member with isFirst | member
          · simp [← isFirst, same] at notHere
          · exact .inr (.inr ⟨rfl, .inl ⟨former, member, same⟩⟩)
        · exact .inr (.inr ⟨rfl, .inr ⟨rfl, (List.forall_mem_cons.mp apart).2⟩⟩)

theorem ordered_insert (ordered : captures.Ordered) : (insert path capture captures).Ordered := by
  induction captures with
  | nil => exact List.pairwise_singleton _ _
  | cons first rest ih =>
    obtain ⟨above, tail⟩ := List.pairwise_cons.mp ordered
    rw [insert]
    split
    · exact List.pairwise_cons.mpr ⟨above, tail⟩
    next notHere =>
      have notHere : path.same first.1 = false := Bool.eq_false_iff.mpr notHere
      split
      next before =>
        refine List.pairwise_cons.mpr ⟨List.forall_mem_cons.mpr ⟨before, fun other member => ?_⟩, ordered⟩
        exact List.lt_trans before (above other member)
      next notBefore =>
        refine List.pairwise_cons.mpr ⟨fun entry member => ?_, ih tail⟩
        rcases key_of_mem_insert member with same | ⟨former, inside, same⟩
        · exact same ▸ Path.lt_of_not_same notHere notBefore
        · exact same ▸ above former inside

/-- The first of some captures that is for a path, under any spelling. -/
def entryFor? (given : List (Path × Capture)) (path : Path) : Option (Path × Capture) :=
  given.find? fun entry => path.same entry.1

section Entry

variable {given : List (Path × Capture)}

theorem same_of_entryFor? (found : entryFor? given path = some entry) : path.same entry.1 = true := by
  simpa using List.find?_some (p := fun entry : Path × Capture => path.same entry.1) found

theorem entryFor?_eq_none_iff : entryFor? given path = none ↔ ∀ entry ∈ given, path.same entry.1 = false := by
  simp [entryFor?]

/-- The spelling makes no difference. -/
theorem entryFor?_congr (alike : path.same other = true) : entryFor? given path = entryFor? given other := by
  rw [entryFor?, entryFor?, Path.same_congr alike]

theorem entryFor?_reverse_eq_none_iff : entryFor? given.reverse path = none ↔ entryFor? given path = none := by
  simp [entryFor?_eq_none_iff]

end Entry

/-- The captures are what remains of some that came one after the other: the spelling that was first
and the capture that was last. -/
structure Sums (captures : Captures) (given : List (Path × Capture)) : Prop where
  ordered : captures.Ordered
  mem_iff : ∀ path capture, (path, capture) ∈ captures ↔
    (∃ former, entryFor? given path = some (path, former)) ∧
      ∃ spelling, entryFor? given.reverse path = some (spelling, capture)

namespace Sums

variable {given : List (Path × Capture)}

theorem exists_mem_iff (sums : captures.Sums given) : (∃ capture, (path, capture) ∈ captures) ↔
    ∃ former, entryFor? given path = some (path, former) := by
  simp only [sums.mem_iff, exists_and_left, and_iff_left_iff_imp]
  rintro ⟨former, found⟩
  cases last : entryFor? given.reverse path with
  | none => simp [entryFor?_reverse_eq_none_iff.mp last] at found
  | some entry => exact ⟨entry.2, entry.1, rfl⟩

/-- A path is missing exactly if it was never given. -/
theorem apart_iff (sums : captures.Sums given) : (∀ entry ∈ captures, path.same entry.1 = false) ↔
    entryFor? given path = none := by
  constructor
  · intro apart
    cases found : entryFor? given path with
    | none => rfl
    | some entry =>
      have alike := same_of_entryFor? found
      rw [entryFor?_congr alike] at found
      obtain ⟨capture, inside⟩ := sums.exists_mem_iff.mpr ⟨entry.2, found⟩
      simp [apart _ inside] at alike
  · rintro never ⟨other, capture⟩ member
    obtain ⟨former, found⟩ := ((sums.mem_iff other capture).mp member).1
    refine Bool.eq_false_iff.mpr fun alike => ?_
    rw [← entryFor?_congr alike, never] at found
    cases found

theorem insert (sums : captures.Sums given) (path : Path) (capture : Capture) :
    (captures.insert path capture).Sums (given ++ [(path, capture)]) where
  ordered := ordered_insert sums.ordered
  mem_iff other later := by
    have first : entryFor? (given ++ [(path, capture)]) other =
        (entryFor? given other).or (if other.same path then some (path, capture) else none) := by
      cases alike : other.same path <;> simp [entryFor?, alike]
    have last : entryFor? (given ++ [(path, capture)]).reverse other =
        if other.same path then some (path, capture) else entryFor? given.reverse other := by
      cases alike : other.same path <;> simp [entryFor?, alike]
    rw [mem_insert_iff sums.ordered, sums.apart_iff, first, last]
    by_cases alike : other.same path = true
    · rw [Path.same_comm] at alike
      rw [entryFor?_congr alike]
      simp only [alike, Path.same_comm, if_true, and_true, and_false, false_or, Bool.true_eq_false,
        sums.exists_mem_iff]
      cases entryFor? given other <;> simp [eq_comm, and_comm]
    · have differs : other ≠ path := fun isSame => alike (by simp [isSame, Path.same])
      have apart : path.same other = false := Path.same_comm.trans (Bool.eq_false_iff.mpr alike)
      simp [alike, apart, differs, sums.mem_iff]

end Sums

end Captures

namespace BatchReport

/-- The captures among some results, in their order. -/
def successes (results : List (Path × Except Failure Capture)) : List (Path × Capture) :=
  results.filterMap fun
    | (path, .ok capture) => some (path, capture)
    | (_, .error _) => none

/-- The failures among some results, in their order. -/
def faults (results : List (Path × Except Failure Capture)) : List (Path × Failure) :=
  results.filterMap fun
    | (_, .ok _) => none
    | (path, .error failure) => some (path, failure)

variable {results : List (Path × Except Failure Capture)} {path : Path} {capture : Capture}

theorem failures_ofResults (results : List (Path × Except Failure Capture)) :
    (ofResults results).failures = faults results := by
  induction results using List.reverseRecOn with
  | nil => rfl
  | append_singleton results last ih =>
    rw [ofResults_concat, faults, List.filterMap_append, ← faults]
    obtain ⟨path, failure | capture⟩ := last <;> simp [add, ih]

/-- What a report keeps of a path: the spelling that came first and the capture that came last. -/
theorem sums_ofResults (results : List (Path × Except Failure Capture)) :
    (ofResults results).captured.Sums (successes results) := by
  induction results using List.reverseRecOn with
  | nil => exact ⟨.nil, by simp [ofResults, empty, successes, Captures.entryFor?]⟩
  | append_singleton results last ih =>
    rw [ofResults_concat, successes, List.filterMap_append, ← successes]
    obtain ⟨path, failure | capture⟩ := last
    · simpa [add] using ih
    · exact ih.insert path capture

/-- The report accounts for all results: every failure is there in its place, and for each path that
was captured the last of its captures. -/
structure Accounts (report : BatchReport) (results : List (Path × Except Failure Capture)) : Prop where
  failures : report.failures = faults results
  captured : report.captured.Sums (successes results)
  keys : ∀ path : Path, (∃ entry ∈ report.captured, path.same entry.1 = true) ↔
    ∃ entry ∈ successes results, path.same entry.1 = true
  complete : report.isComplete = true ↔ ∀ entry ∈ results, ∃ capture, entry.2 = .ok capture
  tokens : report.tokenCount = (report.captured.map fun entry => entry.2.length).sum
  counts : report.fileCount + report.failures.length = results.length ↔
    (successes results).Pairwise fun one other => one.1.same other.1 = false

theorem mem_faults_iff {failure : Failure} : (path, failure) ∈ faults results ↔ (path, .error failure) ∈ results := by
  simp only [faults, List.mem_filterMap]
  constructor
  · rintro ⟨⟨other, failure' | capture⟩, member, isFault⟩
    · cases isFault
      exact member
    · cases isFault
  · exact fun member => ⟨_, member, rfl⟩

end BatchReport

namespace Colorizer

variable {colorizer : Colorizer} {host : Host} {before after : World} {paths : List Path}
  {directory : Path}

end Colorizer

end Colorization
