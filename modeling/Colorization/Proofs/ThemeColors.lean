import Colorization.Comparison
import Colorization.Proofs.Dict
import Colorization.Proofs.Text.Bytes

/-! The two ways of comparing the colours of a token, over the themes of both sides and over
those of one side only, as statements about the maps as partial functions. The themes that differ
are listed in one way only, so both sides list the same. -/
namespace Colorization.ThemeColors

/-- Every colour of `fewer` is also in `more`. -/
def Within (fewer more : ThemeColors) : Prop :=
  ∀ theme color, fewer.get? theme = some color → more.get? theme = some color

theorem Within.refl (colors : ThemeColors) : colors.Within colors := fun _ _ found => found

theorem Within.trans {first second third : ThemeColors} (lower : first.Within second)
    (upper : second.Within third) : first.Within third :=
  fun theme color found => upper theme color (lower theme color found)

theorem Within.antisymm {first second : ThemeColors} (lower : first.Within second)
    (upper : second.Within first) : first = second := by
  apply Dict.ext_get?
  intro theme
  cases found : first.get? theme with
  | some color => exact (lower theme color found).symm
  | none =>
    cases other : second.get? theme with
    | none => rfl
    | some color => rw [upper theme color other] at found; cases found

theorem hasChanged_eq_false_iff (current previous : ThemeColors) :
    current.hasChanged previous = false ↔ current.Within previous := by
  simp only [hasChanged, List.any_eq_false, bne_iff_ne, ne_eq, Decidable.not_not]
  constructor
  · intro same theme color found
    exact same (theme, color) (Dict.get?_eq_some_iff.mp found)
  · intro within entry member
    exact within _ _ (Dict.get?_eq_some_iff.mpr member)

theorem mem_changedThemes_iff (expected actual : ThemeColors) (theme : String) :
    theme ∈ expected.changedThemes actual ↔ expected.get? theme ≠ actual.get? theme := by
  simp only [changedThemes, List.mem_mergeSort, List.mem_append, List.mem_map, List.mem_filter,
    bne_iff_ne, ne_eq, Dict.mem_keys_iff, Option.isNone_iff_eq_none]
  constructor
  · rintro (⟨entry, ⟨member, differs⟩, rfl⟩ | ⟨⟨color, found⟩, missing⟩) same
    · rw [Dict.get?_eq_some_iff.mpr member] at same
      exact differs same.symm
    · rw [missing, found] at same
      cases same
  · intro differs
    cases found : expected.get? theme with
    | some color =>
      refine .inl ⟨(theme, color), ⟨Dict.get?_eq_some_iff.mp found, ?_⟩, rfl⟩
      exact fun same => differs (found.trans same.symm)
    | none =>
      cases other : actual.get? theme with
      | some color => exact .inr ⟨⟨color, rfl⟩, rfl⟩
      | none => exact absurd (found.trans other.symm) differs

theorem changedThemes_eq_nil_iff (expected actual : ThemeColors) :
    expected.changedThemes actual = [] ↔ expected = actual := by
  rw [List.eq_nil_iff_forall_not_mem]
  simp only [mem_changedThemes_iff, ne_eq, Decidable.not_not]
  exact ⟨Dict.ext_get?, fun same _ => same ▸ rfl⟩

theorem hasChanged_iff (current previous : ThemeColors) :
    current.hasChanged previous = true ↔
      ∃ theme ∈ previous.changedThemes current, theme ∈ current.keys := by
  simp only [hasChanged, List.any_eq_true, bne_iff_ne, mem_changedThemes_iff, Dict.mem_keys_iff]
  constructor
  · rintro ⟨entry, member, differs⟩
    have there := Dict.get?_eq_some_iff.mpr member
    exact ⟨entry.1, fun same => differs (same.trans there), entry.2, there⟩
  · rintro ⟨theme, differs, color, there⟩
    exact ⟨(theme, color), Dict.get?_eq_some_iff.mp there, fun same => differs (same.trans there.symm)⟩

theorem nodup_changedThemes (expected actual : ThemeColors) :
    (expected.changedThemes actual).Nodup := by
  unfold changedThemes
  refine (List.mergeSort_perm ..).nodup_iff.mpr (List.nodup_append.mpr ⟨?_, ?_, ?_⟩)
  · exact expected.nodup_keys.sublist (List.filter_sublist.map _)
  · exact actual.nodup_keys.filter _
  · rintro theme inDiffering _ inAdded rfl
    obtain ⟨entry, member, rfl⟩ := List.mem_map.mp inDiffering
    have there := Dict.get?_eq_some_iff.mpr (List.mem_of_mem_filter member)
    simp [there] at inAdded

theorem changedThemes_increasing (expected actual : ThemeColors) :
    (expected.changedThemes actual).Pairwise (· < ·) := by
  have ordered : (expected.changedThemes actual).Pairwise fun first second =>
      decide (first ≤ second) = true :=
    List.pairwise_mergeSort (by simpa using fun _ _ _ => String.le_trans)
      (by simpa using String.le_total) _
  refine (ordered.and (expected.nodup_changedThemes actual)).imp ?_
  rintro first second ⟨notAfter, other⟩
  exact lt_of_le_of_ne (of_decide_eq_true notAfter) other

theorem changedThemes_comm (expected actual : ThemeColors) :
    expected.changedThemes actual = actual.changedThemes expected := by
  have members : (expected.changedThemes actual).Perm (actual.changedThemes expected) := by
    apply (List.perm_ext_iff_of_nodup (nodup_changedThemes ..) (nodup_changedThemes ..)).mpr
    intro theme
    rw [mem_changedThemes_iff, mem_changedThemes_iff, ne_comm]
  refine members.eq_of_pairwise ?_ (changedThemes_increasing ..) (changedThemes_increasing ..)
  intro first second _ _ below above
  exact absurd below (String.lt_asymm above)

/-- What both ways of comparing say of two maps. -/
structure Compared (expected actual : ThemeColors) : Prop where
  increasing : (expected.changedThemes actual).Pairwise fun first second =>
    Text.bytesOf first < Text.bytesOf second
  differing : ∀ theme, theme ∈ expected.changedThemes actual ↔
    expected.get? theme ≠ actual.get? theme
  eitherWay : expected.changedThemes actual = actual.changedThemes expected
  /-- The tolerant comparison sees those of the differing themes that the current side has. -/
  tolerant : actual.hasChanged expected = true ↔
    ∃ theme ∈ expected.changedThemes actual, theme ∈ actual.keys
  unchanged : expected.changedThemes actual = [] ↔
    ¬actual.hasChanged expected ∧ ¬expected.hasChanged actual
  equal : expected.changedThemes actual = [] ↔ expected = actual

theorem comparisons_agree (expected actual : ThemeColors) : Compared expected actual where
  increasing := by
    refine (changedThemes_increasing expected actual).imp ?_
    intro first second
    exact (Text.bytesOf_lt_iff first second).mpr
  differing := mem_changedThemes_iff expected actual
  eitherWay := changedThemes_comm expected actual
  tolerant := hasChanged_iff actual expected
  unchanged := by
    rw [changedThemes_eq_nil_iff, Bool.not_eq_true, Bool.not_eq_true, hasChanged_eq_false_iff,
      hasChanged_eq_false_iff]
    constructor
    · rintro rfl
      exact ⟨.refl _, .refl _⟩
    · rintro ⟨lower, upper⟩
      exact upper.antisymm lower
  equal := changedThemes_eq_nil_iff expected actual

end Colorization.ThemeColors
