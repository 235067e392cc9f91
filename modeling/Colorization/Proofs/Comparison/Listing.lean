import Colorization.Proofs.Comparison.Differences
import Mathlib.Data.List.Nodup

/-! A comparison as a list: what differs is in it once, with both sides as they are, in the
order of the tokens and of the aspects of one token. -/
namespace Colorization

def Aspect.rank : Aspect → Nat
  | .content => 0
  | .scope => 1
  | .theme => 2

namespace Token

/-- What a token shows under an aspect. -/
def view (token : Token) : Aspect → Observation
  | .content => .text token.content
  | .scope => .text token.scope
  | .theme => .colors token.themeColors

/-- The colours differ if some theme, of either side, has another colour or none. -/
def Differs (expected actual : Token) : Aspect → Prop
  | .content => expected.content ≠ actual.content
  | .scope => expected.scope ≠ actual.scope
  | .theme => ∃ theme, expected.themeColors.get? theme ≠ actual.themeColors.get? theme

def difference (index : Nat) (expected actual : Token) (aspect : Aspect) : Difference :=
  ⟨index, aspect, expected.view aspect, actual.view aspect⟩

theorem differs_theme_iff (expected actual : Token) :
    expected.Differs actual .theme ↔ expected.themeColors ≠ actual.themeColors := by
  constructor
  · rintro ⟨theme, differs⟩ same
    exact differs (by rw [same])
  · intro differs
    by_contra none
    apply differs
    apply Dict.ext_get?
    intro theme
    by_contra other
    exact none ⟨theme, other⟩

theorem differs_iff_view_ne (expected actual : Token) (aspect : Aspect) :
    expected.Differs actual aspect ↔ expected.view aspect ≠ actual.view aspect := by
  cases aspect with
  | content => simp [Differs, view]
  | scope => simp [Differs, view]
  | theme => simp [differs_theme_iff, view]

theorem mem_differences_iff_differs (index : Nat) (expected actual : Token)
    (listed : Difference) :
    listed ∈ differences index expected actual ↔
      ∃ aspect, expected.Differs actual aspect ∧
        listed = difference index expected actual aspect := by
  rw [mem_differences_iff, ← differs_theme_iff]
  constructor
  · rintro (⟨differs, rfl⟩ | ⟨differs, rfl⟩ | ⟨differs, rfl⟩)
    · exact ⟨.content, differs, rfl⟩
    · exact ⟨.scope, differs, rfl⟩
    · exact ⟨.theme, differs, rfl⟩
  · rintro ⟨aspect, differs, rfl⟩
    cases aspect with
    | content => exact .inl ⟨differs, rfl⟩
    | scope => exact .inr (.inl ⟨differs, rfl⟩)
    | theme => exact .inr (.inr ⟨differs, rfl⟩)

end Token

namespace Difference

/-- By token, and at one token by aspect. -/
def Before (first second : Difference) : Prop :=
  first.index < second.index ∨
    first.index = second.index ∧ first.aspect.rank < second.aspect.rank

instance : Std.Irrefl Before := ⟨fun difference before => by unfold Before at before; omega⟩

end Difference

/-- The entry of a list that satisfies a test, if it is the only one. -/
theorem filter_eq_singleton {r : α → α → Prop} [Std.Irrefl r] {list : List α}
    (ordered : list.Pairwise r) {test : α → Bool} {entry : α} (member : entry ∈ list)
    (passes : test entry = true) (only : ∀ other ∈ list, test other = true → other = entry) :
    list.filter test = [entry] := by
  apply List.perm_singleton.mp
  apply (List.perm_ext_iff_of_nodup (ordered.nodup.filter test) (List.nodup_singleton entry)).mpr
  intro other
  rw [List.mem_filter, List.mem_singleton]
  constructor
  · rintro ⟨inList, passesToo⟩
    exact only other inList passesToo
  · rintro rfl
    exact ⟨member, passes⟩

namespace Token

theorem index_of_mem_pairDifferences {start : Nat} {baseline current : List Token}
    {listed : Difference} (member : listed ∈ pairDifferences start baseline current) :
    start ≤ listed.index ∧ listed.index < start + min baseline.length current.length := by
  obtain ⟨i, expected, actual, inBaseline, inCurrent, inPair⟩ :=
    (mem_pairDifferences_iff ..).mp member
  obtain ⟨aspect, -, rfl⟩ := (mem_differences_iff_differs ..).mp inPair
  have lower := (List.getElem?_eq_some_iff.mp inBaseline).1
  have upper := (List.getElem?_eq_some_iff.mp inCurrent).1
  simp only [difference]
  omega

theorem differences_ordered (index : Nat) (expected actual : Token) :
    (differences index expected actual).Pairwise Difference.Before := by
  unfold differences
  split <;> split <;> split <;> simp [Difference.Before, Aspect.rank]

theorem pairDifferences_ordered (start : Nat) (baseline current : List Token) :
    (pairDifferences start baseline current).Pairwise Difference.Before := by
  induction baseline generalizing start current with
  | nil => simp [pairDifferences]
  | cons expected baseline ih =>
    cases current with
    | nil => simp [pairDifferences]
    | cons actual current =>
      rw [pairDifferences, List.pairwise_append]
      refine ⟨differences_ordered .., ih .., ?_⟩
      intro first inFirst second inRest
      obtain ⟨aspect, -, rfl⟩ := (mem_differences_iff_differs ..).mp inFirst
      have later := (index_of_mem_pairDifferences inRest).1
      left
      simp only [difference]
      omega

end Token

namespace Capture

def lengthEntry (baseline current : Capture) : Difference :=
  ⟨min baseline.length current.length, .content, .length baseline.length, .length current.length⟩

theorem lengthDifference_of_ne {baseline current : Capture}
    (differ : baseline.length ≠ current.length) :
    baseline.lengthDifference current = [baseline.lengthEntry current] := if_neg differ

theorem compare_ordered (baseline current : Capture) :
    (baseline.compare current).differences.Pairwise Difference.Before := by
  rw [compare, List.pairwise_append]
  refine ⟨Token.pairDifferences_ordered .., ?_, ?_⟩
  · unfold lengthDifference
    split <;> simp
  · intro first inPairs last isLength
    have bound := (Token.index_of_mem_pairDifferences inPairs).2
    obtain ⟨-, rfl⟩ := (mem_lengthDifference_iff ..).mp isLength
    left
    simpa using bound

/-- An entry at a token of both sides is about that token. -/
theorem eq_difference_of_mem {baseline current : Capture} {i : Nat} {expected actual : Token}
    (inBaseline : baseline[i]? = some expected) (inCurrent : current[i]? = some actual)
    {listed : Difference} (member : listed ∈ (baseline.compare current).differences)
    (there : listed.index = i) :
    expected.Differs actual listed.aspect ∧
      listed = expected.difference i actual listed.aspect := by
  rcases (mem_compare_iff ..).mp member with ⟨j, e, a, left, right, inPair⟩ | isLength
  · obtain ⟨aspect, differs, rfl⟩ := (Token.mem_differences_iff_differs ..).mp inPair
    cases there
    cases left.symm.trans inBaseline
    cases right.symm.trans inCurrent
    exact ⟨differs, rfl⟩
  · obtain ⟨-, rfl⟩ := (mem_lengthDifference_iff ..).mp isLength
    have lower := (List.getElem?_eq_some_iff.mp inBaseline).1
    have upper := (List.getElem?_eq_some_iff.mp inCurrent).1
    simp only at there
    omega

theorem eq_lengthEntry_of_mem {baseline current : Capture} {listed : Difference}
    (member : listed ∈ (baseline.compare current).differences)
    (past : min baseline.length current.length ≤ listed.index) :
    baseline.length ≠ current.length ∧ listed = baseline.lengthEntry current := by
  rcases List.mem_append.mp member with inPairs | isLength
  · have bound := (Token.index_of_mem_pairDifferences inPairs).2
    omega
  · exact (mem_lengthDifference_iff ..).mp isLength

theorem lengthEntry_mem_compare {baseline current : Capture}
    (differ : baseline.length ≠ current.length) :
    baseline.lengthEntry current ∈ (baseline.compare current).differences :=
  (mem_compare_iff ..).mpr (.inr ((mem_lengthDifference_iff ..).mpr ⟨differ, rfl⟩))

theorem difference_mem_compare {baseline current : Capture} {i : Nat} {expected actual : Token}
    {aspect : Aspect} (inBaseline : baseline[i]? = some expected)
    (inCurrent : current[i]? = some actual) (differs : expected.Differs actual aspect) :
    expected.difference i actual aspect ∈ (baseline.compare current).differences :=
  (mem_compare_iff ..).mpr (.inl ⟨i, expected, actual, inBaseline, inCurrent,
    (Token.mem_differences_iff_differs ..).mpr ⟨aspect, differs, rfl⟩⟩)

theorem exists_entry_iff (baseline current : Capture) (i : Nat) (aspect : Aspect) :
    (∃ listed ∈ (baseline.compare current).differences,
        listed.index = i ∧ listed.aspect = aspect) ↔
      (∃ expected actual, baseline[i]? = some expected ∧ current[i]? = some actual ∧
        expected.Differs actual aspect) ∨
      (baseline.length ≠ current.length ∧ min baseline.length current.length = i ∧
        aspect = .content) := by
  constructor
  · rintro ⟨listed, member, rfl, rfl⟩
    rcases (mem_compare_iff ..).mp member with
      ⟨j, expected, actual, inBaseline, inCurrent, inPair⟩ | isLength
    · obtain ⟨aspect, differs, rfl⟩ := (Token.mem_differences_iff_differs ..).mp inPair
      exact .inl ⟨expected, actual, inBaseline, inCurrent, differs⟩
    · obtain ⟨differ, rfl⟩ := (mem_lengthDifference_iff ..).mp isLength
      exact .inr ⟨differ, rfl, rfl⟩
  · rintro (⟨expected, actual, inBaseline, inCurrent, differs⟩ | ⟨differ, rfl, rfl⟩)
    · exact ⟨expected.difference i actual aspect,
        difference_mem_compare inBaseline inCurrent differs, rfl, rfl⟩
    · exact ⟨baseline.lengthEntry current, lengthEntry_mem_compare differ, rfl, rfl⟩

/-- A list says what differs between two captures: each thing once, nothing else, in order. -/
structure Listing (baseline current : Capture) (listed : List Difference) : Prop where
  differing : ∀ i expected actual aspect, baseline[i]? = some expected →
    current[i]? = some actual → expected.Differs actual aspect →
    listed.filter (fun entry => entry.index = i ∧ entry.aspect = aspect) =
      [⟨i, aspect, expected.view aspect, actual.view aspect⟩]
  agreeing : ∀ i expected actual aspect, baseline[i]? = some expected →
    current[i]? = some actual → ¬expected.Differs actual aspect →
    listed.filter (fun entry => entry.index = i ∧ entry.aspect = aspect) = []
  longer : baseline.length ≠ current.length →
    listed.filter (fun entry => min baseline.length current.length ≤ entry.index) =
        [baseline.lengthEntry current] ∧
      listed.getLast? = some (baseline.lengthEntry current)
  level : baseline.length = current.length →
    listed.filter (fun entry => min baseline.length current.length ≤ entry.index) = []
  ordered : listed.Pairwise Difference.Before

/-- A comparison lists exactly the differences, without repetitions and in order. -/
theorem compare_listing (baseline current : Capture) :
    Listing baseline current (baseline.compare current).differences where
  differing := by
    intro i expected actual aspect inBaseline inCurrent differs
    apply filter_eq_singleton (compare_ordered baseline current)
    · apply (mem_compare_iff ..).mpr
      exact .inl ⟨i, expected, actual, inBaseline, inCurrent,
        (Token.mem_differences_iff_differs ..).mpr ⟨aspect, differs, rfl⟩⟩
    · simp
    · intro other member there
      obtain ⟨rfl, rfl⟩ := of_decide_eq_true there
      exact (eq_difference_of_mem inBaseline inCurrent member rfl).2
  agreeing := by
    intro i expected actual aspect inBaseline inCurrent agrees
    apply List.filter_eq_nil_iff.mpr
    intro other member there
    obtain ⟨rfl, rfl⟩ := of_decide_eq_true there
    exact agrees (eq_difference_of_mem inBaseline inCurrent member rfl).1
  longer := by
    intro differ
    constructor
    · apply filter_eq_singleton (compare_ordered baseline current)
      · rw [compare, lengthDifference_of_ne differ]
        simp
      · simp [lengthEntry]
      · intro other member past
        exact (eq_lengthEntry_of_mem member (of_decide_eq_true past)).2
    · rw [compare, lengthDifference_of_ne differ, List.getLast?_concat]
  level := by
    intro level
    apply List.filter_eq_nil_iff.mpr
    intro other member past
    exact (eq_lengthEntry_of_mem member (of_decide_eq_true past)).1 level
  ordered := compare_ordered baseline current

end Capture

end Colorization
