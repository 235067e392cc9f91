import Colorization.Proofs.Comparison.Listing

/-! Comparisons among several captures. Exchanging two captures exchanges the sides of every entry
and nothing else. On the way from one capture over others to the last, no difference appears from
nowhere: some step has an entry at the same place, or one for a length that ends at it or before.
That is so because such a step is one between captures that do not give the same glimpse of the
place, and captures whose glimpses stay the same from step to step give the same one at the ends. -/
namespace Colorization

/-- The same entry, seen from the other capture. -/
def Difference.mirrored (difference : Difference) : Difference :=
  { difference with expected := difference.actual, actual := difference.expected }

/-- An entry that stands unless two things are equal stands either way round. -/
theorem Difference.unless_mirrored {expected actual : α} [Decidable (expected = actual)]
    [Decidable (actual = expected)] (entry : Difference) :
    (if actual = expected then [] else [entry.mirrored]) =
      (if expected = actual then [] else [entry]).map mirrored := by
  by_cases same : expected = actual
  · rw [if_pos same, if_pos same.symm, List.map_nil]
  · rw [if_neg same, if_neg (Ne.symm same), List.map_singleton]

namespace Comparison

def mirrored (comparison : Comparison) : Comparison :=
  ⟨comparison.differences.map Difference.mirrored⟩

variable (comparison : Comparison)

theorem identical_mirrored : comparison.mirrored.identical = comparison.identical := by
  simp [identical, mirrored]

theorem count_mirrored (aspect : Aspect) :
    comparison.mirrored.count aspect = comparison.count aspect := by
  simp only [count, mirrored, List.countP_map]
  rfl

theorem summary_mirrored : comparison.mirrored.summary = comparison.summary := by
  have length : comparison.mirrored.differences.length = comparison.differences.length := by
    simp [mirrored]
  simp only [summary, identical_mirrored, count_mirrored, length]

end Comparison

namespace Token

theorem differences_mirrored (index : Nat) (expected actual : Token) :
    differences index actual expected =
      (differences index expected actual).map Difference.mirrored := by
  simp only [differences, List.map_append, List.isEmpty_iff, ThemeColors.changedThemes_eq_nil_iff]
  congr 1
  · congr 1
    · exact Difference.unless_mirrored
        ⟨index, .content, .text expected.content, .text actual.content⟩
    · exact Difference.unless_mirrored ⟨index, .scope, .text expected.scope, .text actual.scope⟩
  · exact Difference.unless_mirrored
      ⟨index, .theme, .colors expected.themeColors, .colors actual.themeColors⟩

theorem pairDifferences_mirrored (start : Nat) (baseline current : List Token) :
    pairDifferences start current baseline =
      (pairDifferences start baseline current).map Difference.mirrored := by
  induction baseline generalizing start current with
  | nil => cases current <;> rfl
  | cons expected baseline ih =>
    cases current with
    | nil => rfl
    | cons actual current =>
      simp only [pairDifferences, List.map_append]
      rw [differences_mirrored, ih]

end Token

namespace Capture

theorem lengthDifference_mirrored (baseline current : Capture) :
    current.lengthDifference baseline =
      (baseline.lengthDifference current).map Difference.mirrored := by
  unfold lengthDifference
  rw [Nat.min_comm]
  exact Difference.unless_mirrored (baseline.lengthEntry current)

theorem compare_mirrored (baseline current : Capture) :
    current.compare baseline = (baseline.compare current).mirrored := by
  simp only [compare, Comparison.mirrored, List.map_append]
  rw [Token.pairDifferences_mirrored, lengthDifference_mirrored]

/-- Compared the other way round, captures have the same entries in the same order, with the sides
exchanged, and so the same verdict, counts and summary. -/
theorem compare_symmetric (baseline current : Capture) :
    (current.compare baseline).differences =
        (baseline.compare current).differences.map Difference.mirrored ∧
      (current.compare baseline).identical = (baseline.compare current).identical ∧
      (∀ aspect,
        (current.compare baseline).count aspect = (baseline.compare current).count aspect) ∧
      (current.compare baseline).summary = (baseline.compare current).summary := by
  rw [compare_mirrored baseline current]
  exact ⟨rfl, Comparison.identical_mirrored _, Comparison.count_mirrored _,
    Comparison.summary_mirrored _⟩

end Capture

/-- The entry for a difference of length, which no token has. -/
def Difference.IsLength (difference : Difference) : Prop :=
  ∃ former current, difference.expected = .length former ∧ difference.actual = .length current

theorem Token.not_isLength_difference (expected actual : Token) (index : Nat) (aspect : Aspect) :
    ¬ (expected.difference index actual aspect).IsLength := by
  rintro ⟨former, -, isLength, -⟩
  cases aspect <;> cases isLength

/-- The comparison has an entry at this place, or one for a length that ends at it or before. -/
def Comparison.Reveals (comparison : Comparison) (index : Nat) (aspect : Aspect) : Prop :=
  (∃ entry ∈ comparison.differences, entry.index = index ∧ entry.aspect = aspect) ∨
    ∃ entry ∈ comparison.differences, entry.IsLength ∧ entry.index ≤ index

/-- What has changed at the end of a way has changed in one of its steps. -/
theorem exists_step_ne {view : α → β} {first : α} {later : List α}
    (differ : view first ≠ view (later.getLastD first)) :
    ∃ step ∈ (first :: later).zip later, view step.1 ≠ view step.2 := by
  induction later generalizing first with
  | nil => exact absurd rfl differ
  | cons next later ih =>
    by_cases same : view first = view next
    · rw [List.getLastD_cons, same] at differ
      obtain ⟨step, member, differs⟩ := ih differ
      exact ⟨step, List.mem_cons_of_mem _ member, differs⟩
    · exact ⟨(first, next), List.mem_cons_self, same⟩

namespace Capture

/-- What a capture shows at a place: how far it reaches up to there, and its token there. -/
def glimpse (index : Nat) (aspect : Aspect) (capture : Capture) : Nat × Option Observation :=
  (min capture.length (index + 1), capture[index]?.map (·.view aspect))

variable (baseline current : Capture) (index : Nat) (aspect : Aspect)

theorem exists_length_entry_iff :
    (∃ entry ∈ (baseline.compare current).differences, entry.IsLength ∧ entry.index ≤ index) ↔
      baseline.length ≠ current.length ∧ min baseline.length current.length ≤ index := by
  constructor
  · rintro ⟨entry, member, isLength, within⟩
    rcases (mem_compare_iff ..).mp member with ⟨i, expected, actual, -, -, inPair⟩ | isEntry
    · obtain ⟨aspect, -, rfl⟩ := (Token.mem_differences_iff_differs ..).mp inPair
      exact absurd isLength (Token.not_isLength_difference expected actual i aspect)
    · obtain ⟨differ, rfl⟩ := (mem_lengthDifference_iff ..).mp isEntry
      exact ⟨differ, within⟩
  · rintro ⟨differ, within⟩
    exact ⟨baseline.lengthEntry current, lengthEntry_mem_compare differ,
      ⟨baseline.length, current.length, rfl, rfl⟩, within⟩

variable {baseline current index aspect}

/-- Captures that reach equally far, up to a place, have tokens there or neither has. -/
theorem exists_differs_iff
    (level : min baseline.length (index + 1) = min current.length (index + 1)) :
    (∃ expected actual, baseline[index]? = some expected ∧ current[index]? = some actual ∧
        expected.Differs actual aspect) ↔
      baseline[index]?.map (·.view aspect) ≠ current[index]?.map (·.view aspect) := by
  by_cases reached : index < baseline.length
  · have reachedToo : index < current.length := by omega
    rw [List.getElem?_eq_getElem reached, List.getElem?_eq_getElem reachedToo]
    simp [Token.differs_iff_view_ne]
  · have missing : baseline[index]? = none := List.getElem?_eq_none (by omega)
    have missingToo : current[index]? = none := List.getElem?_eq_none (by omega)
    simp [missing, missingToo]

/-- A comparison reveals a place exactly if the captures give different glimpses of it. -/
theorem reveals_iff : (baseline.compare current).Reveals index aspect ↔
    baseline.glimpse index aspect ≠ current.glimpse index aspect := by
  rw [Comparison.Reveals, exists_entry_iff, exists_length_entry_iff]
  simp only [glimpse, ne_eq, Prod.mk.injEq, not_and_or]
  -- Only captures that reach equally far, up to the place, have no entry for a length there.
  by_cases level : min baseline.length (index + 1) = min current.length (index + 1)
  · have inside : baseline.length ≠ current.length →
        index < min baseline.length current.length := by omega
    rw [exists_differs_iff level]
    constructor
    · rintro ((differs | ⟨differ, ends, -⟩) | ⟨differ, within⟩)
      · exact .inr differs
      · exact absurd (inside differ) (by omega)
      · exact absurd (inside differ) (by omega)
    · rintro (shorter | differs)
      · exact absurd level shorter
      · exact .inl (.inl differs)
  · have past : baseline.length ≠ current.length ∧
        min baseline.length current.length ≤ index := by omega
    exact ⟨fun _ => .inl level, fun _ => .inr past⟩

theorem glimpse_ne_of_mem {entry : Difference}
    (member : entry ∈ (baseline.compare current).differences) :
    baseline.glimpse entry.index entry.aspect ≠ current.glimpse entry.index entry.aspect :=
  reveals_iff.mp (.inl ⟨entry, member, rfl, rfl⟩)

/-- An entry between two captures has one at its place, or one for a length before it, on either
side of a third capture, and so somewhere on every way over other captures. -/
theorem compare_triangle :
    (∀ first middle last : Capture, ∀ entry ∈ (first.compare last).differences,
      (first.compare middle).Reveals entry.index entry.aspect ∨
        (middle.compare last).Reveals entry.index entry.aspect) ∧
    ∀ (first : Capture) (later : List Capture),
      ∀ entry ∈ (first.compare (later.getLastD first)).differences,
        ∃ step ∈ (first :: later).zip later,
          (step.1.compare step.2).Reveals entry.index entry.aspect := by
  simp only [reveals_iff]
  constructor
  · intro first middle last entry member
    exact ((glimpse_ne_of_mem member).ne_or_ne _).imp_right Ne.symm
  · intro first later entry member
    exact exists_step_ne (glimpse_ne_of_mem member)

/-- A token whose change is out of sight past the end of a shorter capture in between. -/
theorem compare_triangle_shorter :
    let plain (content : String) : Token := ⟨content, "source", .empty⟩
    let first := [plain "a", plain "b"]
    let middle := [plain "a"]
    let last := [plain "a", plain "c"]
    let entry := (plain "b").difference 1 (plain "c") .content
    entry ∈ (compare first last).differences ∧
      ((compare first middle).Reveals 1 .content ∨ (compare middle last).Reveals 1 .content) ∧
      ∃ step ∈ [(first, middle), (middle, last)], (compare step.1 step.2).Reveals 1 .content := by
  intro plain first middle last entry
  have member : entry ∈ (compare first last).differences := by
    apply difference_mem_compare rfl rfl
    simp [Token.Differs, plain]
  exact ⟨member, compare_triangle.1 first middle last entry member,
    compare_triangle.2 first [middle, last] entry member⟩

end Capture

end Colorization
