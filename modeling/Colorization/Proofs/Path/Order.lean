import Colorization.Path
import Mathlib.Order.Defs.LinearOrder

/-! Paths in the order of their components, which is a strict order of all paths that are not the
same. -/
namespace Colorization

namespace Component

theorem rank_injective {one other : Component} (same : one.rank = other.rank) : one = other := by
  cases one <;> cases other <;> simp_all [rank]

theorem lt_iff {one other : Component} : one < other ↔
    one.rank.1 < other.rank.1 ∨ one.rank.1 = other.rank.1 ∧ one.rank.2 < other.rank.2 :=
  Iff.rfl

instance : Std.Irrefl (α := Component) (· < ·) where
  irrefl component less := by
    rcases lt_iff.mp less with less | ⟨-, less⟩
    · exact Nat.lt_irrefl _ less
    · exact String.lt_irrefl _ less

instance : Trans (α := Component) (· < ·) (· < ·) (· < ·) where
  trans lower upper := by
    rcases lt_iff.mp lower with lower | ⟨same, lower⟩ <;>
      rcases lt_iff.mp upper with upper | ⟨same', upper⟩
    · exact lt_iff.mpr (.inl (Nat.lt_trans lower upper))
    · exact lt_iff.mpr (.inl (same' ▸ lower))
    · exact lt_iff.mpr (.inl (same ▸ upper))
    · exact lt_iff.mpr (.inr ⟨same.trans same', String.lt_trans lower upper⟩)

instance : Std.Trichotomous (α := Component) (· < ·) where
  trichotomous one other notLess notGreater := by
    simp only [lt_iff, not_or, not_and] at notLess notGreater
    have first : one.rank.1 = other.rank.1 := by omega
    have second : one.rank.2 = other.rank.2 :=
      String.le_antisymm (String.not_lt.mp (notGreater.2 first.symm)) (String.not_lt.mp (notLess.2 first))
    exact rank_injective (Prod.ext first second)

end Component

namespace Path

variable {one other : Path}

theorem same_comm : one.same other = other.same one := by simp [same, eq_comm]

/-- Paths that are the same are the same as the same paths. -/
theorem same_congr (alike : one.same other = true) : one.same = other.same := by
  have alike : one.components = other.components := by simpa [same] using alike
  funext path
  simp [same, alike]

theorem same_right_congr (alike : one.same other = true) (path : Path) : path.same one = path.same other := by
  rw [same_comm, same_congr alike, same_comm]

theorem same_eq_false_of_lt (less : one.components < other.components) : one.same other = false := by
  have differs : one.components ≠ other.components := fun same =>
    List.lt_irrefl _ (same ▸ less)
  simpa [same] using differs

/-- Of two different paths one comes first. -/
theorem lt_of_not_same (differs : one.same other = false) (notLess : ¬ one.components < other.components) :
    other.components < one.components := by
  by_contra notGreater
  have same : one.components = other.components :=
    List.le_antisymm (List.not_lt.mp notGreater) (List.not_lt.mp notLess)
  simp [Path.same, same] at differs

end Path

end Colorization
