import Colorization.Proofs.ThemeColors
import Mathlib.Tactic.ByContra

/-! What a comparison lists: for each pair of tokens the fields in which they differ, and one
entry for a difference of length. -/
namespace Colorization

namespace Token

theorem mem_differences_iff (index : Nat) (expected actual : Token) (difference : Difference) :
    difference ∈ differences index expected actual ↔
      (expected.content ≠ actual.content ∧
        difference = ⟨index, .content, .text expected.content, .text actual.content⟩) ∨
      (expected.scope ≠ actual.scope ∧
        difference = ⟨index, .scope, .text expected.scope, .text actual.scope⟩) ∨
      (expected.themeColors ≠ actual.themeColors ∧
        difference = ⟨index, .theme, .colors expected.themeColors, .colors actual.themeColors⟩) := by
  simp only [differences, List.isEmpty_iff, ThemeColors.changedThemes_eq_nil_iff, List.mem_append,
    or_assoc]
  refine or_congr ?_ (or_congr ?_ ?_)
  all_goals split
  all_goals simp [*]

theorem differences_eq_nil_iff (index : Nat) (expected actual : Token) :
    differences index expected actual = [] ↔ expected = actual := by
  cases expected
  cases actual
  simp [differences, ThemeColors.changedThemes_eq_nil_iff]

theorem mem_pairDifferences_iff (start : Nat) (baseline current : List Token)
    (difference : Difference) :
    difference ∈ pairDifferences start baseline current ↔
      ∃ (i : Nat) (expected actual : Token), baseline[i]? = some expected ∧
        current[i]? = some actual ∧ difference ∈ differences (start + i) expected actual := by
  induction baseline generalizing start current with
  | nil => simp [pairDifferences]
  | cons expected baseline ih =>
    cases current with
    | nil => simp [pairDifferences]
    | cons actual current =>
      rw [pairDifferences, List.mem_append, ih]
      constructor
      · rintro (here | ⟨i, e, a, inBaseline, inCurrent, member⟩)
        · exact ⟨0, expected, actual, rfl, rfl, here⟩
        · exact ⟨i + 1, e, a, inBaseline, inCurrent, by rwa [Nat.add_right_comm] at member⟩
      · rintro ⟨i, e, a, inBaseline, inCurrent, member⟩
        cases i with
        | zero =>
          cases inBaseline
          cases inCurrent
          exact .inl member
        | succ i =>
          exact .inr ⟨i, e, a, inBaseline, inCurrent, by rwa [Nat.add_right_comm]⟩

end Token

namespace Capture

theorem mem_lengthDifference_iff (baseline current : Capture) (difference : Difference) :
    difference ∈ baseline.lengthDifference current ↔ baseline.length ≠ current.length ∧
      difference = ⟨min baseline.length current.length, .content, .length baseline.length,
        .length current.length⟩ := by
  unfold lengthDifference
  split <;> simp [*]

theorem mem_compare_iff (baseline current : Capture) (difference : Difference) :
    difference ∈ (baseline.compare current).differences ↔
      (∃ (i : Nat) (expected actual : Token), baseline[i]? = some expected ∧
        current[i]? = some actual ∧ difference ∈ Token.differences i expected actual) ∨
      difference ∈ baseline.lengthDifference current := by
  simp only [compare, List.mem_append, Token.mem_pairDifferences_iff, Nat.zero_add]

/-- Nothing is listed exactly if the captures are equal. -/
theorem compare_eq_nil_iff (baseline current : Capture) :
    (baseline.compare current).differences = [] ↔ baseline = current := by
  constructor
  · intro empty
    have absent : ∀ difference, difference ∉ (baseline.compare current).differences := by
      simp [empty]
    simp only [mem_compare_iff, not_or] at absent
    have lengths : baseline.length = current.length := by
      by_contra differs
      exact (absent _).2 ((mem_lengthDifference_iff _ _ _).mpr ⟨differs, rfl⟩)
    apply List.ext_getElem lengths
    intro i inBaseline inCurrent
    apply (Token.differences_eq_nil_iff i _ _).mp
    apply List.eq_nil_iff_forall_not_mem.mpr
    intro difference member
    exact (absent difference).1 ⟨i, _, _, List.getElem?_eq_getElem inBaseline,
      List.getElem?_eq_getElem inCurrent, member⟩
  · rintro rfl
    apply List.eq_nil_iff_forall_not_mem.mpr
    intro difference member
    rcases (mem_compare_iff _ _ _).mp member with ⟨i, expected, actual, left, right, inPair⟩ | inLength
    · cases left.symm.trans right
      rw [(Token.differences_eq_nil_iff i _ _).mpr rfl] at inPair
      cases inPair
    · exact ((mem_lengthDifference_iff _ _ _).mp inLength).1 rfl

end Capture

end Colorization
