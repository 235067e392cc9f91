import Colorization.Proofs.Comparison.Differences

/-! How a change is classified, held to the relation of captures that admit others: lengths
and texts stay, and the colours that there are now were there before. The relation is a
preorder, and the list of differences shows whether it holds. -/
namespace Colorization

/-- The text is the same, and no colour is new or another. -/
def Token.Admits (former current : Token) : Prop :=
  former.content = current.content ∧ current.themeColors.Within former.themeColors

namespace Capture

/-- The current capture may take the place of the former one without a failure. -/
def Admits (former current : Capture) : Prop :=
  former.length = current.length ∧ ∀ (i : Nat) (before now : Token),
    former[i]? = some before → current[i]? = some now → before.Admits now

theorem Admits.refl (capture : Capture) : capture.Admits capture := by
  refine ⟨rfl, fun i before now inFormer inCurrent => ?_⟩
  cases inFormer.symm.trans inCurrent
  exact ⟨rfl, .refl _⟩

theorem Admits.trans {first second third : Capture} (lower : first.Admits second)
    (upper : second.Admits third) : first.Admits third := by
  refine ⟨lower.1.trans upper.1, fun i before now inFirst inThird => ?_⟩
  obtain ⟨bound, -⟩ := List.getElem?_eq_some_iff.mp inFirst
  have bound : i < second.length := lower.1 ▸ bound
  have inSecond : second[i]? = some second[i] := List.getElem?_eq_getElem bound
  have early := lower.2 i _ _ inFirst inSecond
  have late := upper.2 i _ _ inSecond inThird
  exact ⟨early.1.trans late.1, late.2.trans early.2⟩

/-- Captures that admit each other differ in scopes only. -/
theorem admits_both_iff (first second : Capture) :
    first.Admits second ∧ second.Admits first ↔
      first.map Token.content = second.map Token.content ∧
        first.map Token.themeColors = second.map Token.themeColors := by
  constructor
  · rintro ⟨lower, upper⟩
    constructor
    all_goals
      apply List.ext_getElem (by simp [lower.1])
      intro i inFirst inSecond
      simp only [List.length_map] at inFirst inSecond
      have there := lower.2 i _ _ (List.getElem?_eq_getElem inFirst) (List.getElem?_eq_getElem inSecond)
      have back := upper.2 i _ _ (List.getElem?_eq_getElem inSecond) (List.getElem?_eq_getElem inFirst)
      simp only [List.getElem_map]
    · exact there.1
    · exact back.2.antisymm there.2
  · rintro ⟨contents, colors⟩
    have length : first.length = second.length := by simpa using congrArg List.length contents
    have alike : ∀ (i : Nat) (a b : Token), first[i]? = some a → second[i]? = some b →
        a.content = b.content ∧ a.themeColors = b.themeColors := by
      intro i a b inFirst inSecond
      have content := congrArg (·[i]?) contents
      have color := congrArg (·[i]?) colors
      simp only [List.getElem?_map, inFirst, inSecond, Option.map_some, Option.some.injEq]
        at content color
      exact ⟨content, color⟩
    refine ⟨⟨length, fun i a b inFirst inSecond => ?_⟩,
      ⟨length.symm, fun i b a inSecond inFirst => ?_⟩⟩
    all_goals obtain ⟨content, color⟩ := alike i a b inFirst inSecond
    · exact ⟨content, color ▸ .refl _⟩
    · exact ⟨content.symm, color ▸ .refl _⟩

theorem admits_iff_zip {baseline current : Capture} (lengths : baseline.length = current.length) :
    baseline.Admits current ↔ ∀ pair ∈ current.zip baseline, pair.2.Admits pair.1 := by
  constructor
  · intro admits pair member
    obtain ⟨i, at'⟩ := List.mem_iff_getElem?.mp member
    obtain ⟨inCurrent, inBaseline⟩ := List.getElem?_zip_eq_some.mp at'
    exact admits.2 i _ _ inBaseline inCurrent
  · intro pairs
    refine ⟨lengths, fun i before now inBaseline inCurrent => ?_⟩
    have member : (now, before) ∈ current.zip baseline :=
      List.mem_of_getElem? (List.getElem?_zip_eq_some.mpr ⟨inCurrent, inBaseline⟩)
    exact pairs _ member

theorem classify_eq_identical_iff (baseline current : Capture) :
    baseline.classify current = .identical ↔ baseline = current := by
  unfold classify
  split
  · simp [*]
  · constructor
    · intro classified
      split at classified
      · cases classified
      · split at classified <;> cases classified
    · intro same
      contradiction

theorem classify_ne_material_iff (baseline current : Capture) :
    baseline.classify current ≠ .material ↔ baseline.Admits current := by
  unfold classify
  split
  next same => exact ⟨fun _ => same ▸ .refl _, fun _ => nofun⟩
  next =>
    split
    next lengths => exact ⟨fun h => absurd rfl h, fun admits => absurd admits.1 lengths⟩
    next lengths =>
      have walk : (current.zip baseline).any (fun pair => pair.1.content != pair.2.content ||
          pair.1.themeColors.hasChanged pair.2.themeColors) = false ↔ baseline.Admits current := by
        rw [admits_iff_zip (Decidable.not_not.mp lengths)]
        simp only [List.any_eq_false, Bool.or_eq_true, bne_iff_ne, not_or, Bool.not_eq_true, ne_eq,
          Decidable.not_not, ThemeColors.hasChanged_eq_false_iff]
        exact forall₂_congr fun _ _ => and_congr_left' eq_comm
      rw [← walk]
      split
      next any => simp [any]
      next none => simp [Bool.eq_false_iff.mpr none]

theorem classify_eq_material_iff (baseline current : Capture) :
    baseline.classify current = .material ↔ ¬ baseline.Admits current := by
  rw [← classify_ne_material_iff, ne_eq, Decidable.not_not]

theorem classify_eq_cosmetic_iff (baseline current : Capture) :
    baseline.classify current = .cosmetic ↔ baseline ≠ current ∧ baseline.Admits current := by
  rw [← classify_ne_material_iff, ne_eq, ← classify_eq_identical_iff]
  cases baseline.classify current <;> simp

end Capture

namespace Difference

/-- A colour of the actual token that the expected one lacks or has differently. -/
def AddsColor (difference : Difference) : Prop :=
  difference.aspect = .theme ∧ ∃ expected actual, difference.expected = .colors expected ∧
    difference.actual = .colors actual ∧
    ∃ theme color, actual.get? theme = some color ∧ expected.get? theme ≠ some color

/-- The actual token has some of the expected one's colours, but not all, and no others. -/
def DropsThemes (difference : Difference) : Prop :=
  difference.aspect = .theme ∧ ∃ expected actual, difference.expected = .colors expected ∧
    difference.actual = .colors actual ∧ actual.Within expected ∧
    ∃ theme color, expected.get? theme = some color ∧ actual.get? theme = none

theorem addsColor_iff (index : Nat) (expected actual : ThemeColors) :
    AddsColor ⟨index, .theme, .colors expected, .colors actual⟩ ↔ ¬ actual.Within expected := by
  simp [AddsColor, ThemeColors.Within]

/-- Of two maps, one within the other, the larger one has a theme more. -/
theorem dropsThemes_iff (index : Nat) {expected actual : ThemeColors}
    (differs : expected ≠ actual) :
    DropsThemes ⟨index, .theme, .colors expected, .colors actual⟩ ↔ actual.Within expected := by
  constructor
  · rintro ⟨-, _, _, ⟨⟩, ⟨⟩, within, -⟩
    exact within
  · intro within
    refine ⟨rfl, expected, actual, rfl, rfl, within, ?_⟩
    by_contra none
    apply differs
    refine ThemeColors.Within.antisymm (fun theme color found => ?_) within
    cases other : actual.get? theme with
    | none => exact absurd ⟨theme, color, found, other⟩ none
    | some color' => rw [← within theme color' other, found]

/-- What a list of differences may hold without a failure. -/
def Tolerable (difference : Difference) : Prop :=
  difference.aspect ≠ .content ∧ ¬ difference.AddsColor

end Difference

namespace Token

theorem admits_iff_tolerable (index : Nat) (expected actual : Token) :
    expected.Admits actual ↔
      ∀ difference ∈ differences index expected actual, difference.Tolerable := by
  simp only [mem_differences_iff, Admits]
  constructor
  · rintro ⟨content, within⟩ difference (⟨differs, -⟩ | ⟨-, rfl⟩ | ⟨-, rfl⟩)
    · exact absurd content differs
    · exact ⟨nofun, nofun⟩
    · exact ⟨nofun, fun adds => (Difference.addsColor_iff _ _ _).mp adds within⟩
  · intro tolerable
    constructor
    · by_contra differs
      exact (tolerable _ (.inl ⟨differs, rfl⟩)).1 rfl
    · by_contra outside
      have differs : expected.themeColors ≠ actual.themeColors :=
        fun same => outside (same ▸ .refl _)
      exact (tolerable _ (.inr (.inr ⟨differs, rfl⟩))).2
        ((Difference.addsColor_iff _ _ _).mpr outside)

/-- A tolerable difference is one of scopes, or a loss of themes. -/
theorem tolerable_iff_of_mem {index : Nat} {expected actual : Token} {difference : Difference}
    (member : difference ∈ differences index expected actual) :
    difference.Tolerable ↔ difference.aspect = .scope ∨ difference.DropsThemes := by
  rcases (mem_differences_iff _ _ _ _).mp member with ⟨-, rfl⟩ | ⟨-, rfl⟩ | ⟨differs, rfl⟩
  · simp [Difference.Tolerable, Difference.DropsThemes]
  · simp [Difference.Tolerable, Difference.AddsColor]
  · simp [Difference.Tolerable, Difference.addsColor_iff, Difference.dropsThemes_iff _ differs]

end Token

namespace Capture

theorem admits_iff_tolerable (baseline current : Capture) :
    baseline.Admits current ↔
      ∀ difference ∈ (baseline.compare current).differences, difference.Tolerable := by
  simp only [mem_compare_iff]
  constructor
  · rintro ⟨lengths, pairs⟩ difference (⟨i, expected, actual, left, right, member⟩ | inLength)
    · exact (Token.admits_iff_tolerable i _ _).mp (pairs i _ _ left right) difference member
    · exact absurd lengths ((mem_lengthDifference_iff _ _ _).mp inLength).1
  · intro tolerable
    constructor
    · by_contra differs
      exact (tolerable _ (.inr ((mem_lengthDifference_iff _ _ _).mpr ⟨differs, rfl⟩))).1 rfl
    · intro i before now left right
      apply (Token.admits_iff_tolerable i before now).mpr
      exact fun difference member => tolerable _ (.inl ⟨i, before, now, left, right, member⟩)

theorem tolerable_iff_of_mem {baseline current : Capture} {difference : Difference}
    (member : difference ∈ (baseline.compare current).differences) :
    difference.Tolerable ↔ difference.aspect = .scope ∨ difference.DropsThemes := by
  rcases (mem_compare_iff _ _ _).mp member with ⟨i, expected, actual, -, -, inPair⟩ | inLength
  · exact Token.tolerable_iff_of_mem inPair
  · obtain ⟨-, rfl⟩ := (mem_lengthDifference_iff _ _ _).mp inLength
    simp [Difference.Tolerable, Difference.DropsThemes]

/-- The classification can be read off the list of differences: nothing is listed for equal
captures; a difference of text or length, or a new colour, is material; changes of scope and
losses of themes alone are cosmetic. -/
theorem classify_iff_differences (baseline current : Capture) :
    ((baseline.classify current = .identical ↔ (baseline.compare current).identical = true) ∧
      ((baseline.compare current).identical = true ↔
        (baseline.compare current).differences = []) ∧
      ((baseline.compare current).differences = [] ↔ baseline = current)) ∧
    (baseline.classify current = .material ↔
      ∃ difference ∈ (baseline.compare current).differences,
        difference.aspect = .content ∨ difference.AddsColor) ∧
    (baseline.classify current = .cosmetic ↔
      (baseline.compare current).differences ≠ [] ∧
        ∀ difference ∈ (baseline.compare current).differences,
          difference.aspect = .scope ∨ difference.DropsThemes) := by
  have flag : (baseline.compare current).identical = true ↔
      (baseline.compare current).differences = [] := List.isEmpty_iff
  refine ⟨⟨?_, flag, compare_eq_nil_iff _ _⟩, ?_, ?_⟩
  · rw [flag, compare_eq_nil_iff, classify_eq_identical_iff]
  · rw [classify_eq_material_iff, admits_iff_tolerable]
    simp only [Difference.Tolerable, not_forall, not_and_or, ne_eq, not_not, exists_prop]
  · rw [classify_eq_cosmetic_iff, ne_eq, ne_eq, compare_eq_nil_iff, admits_iff_tolerable]
    exact and_congr_right fun _ => forall₂_congr fun _ member => tolerable_iff_of_mem member

end Capture

end Colorization
