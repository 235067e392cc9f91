import Colorization.Proofs.Comparison.Classification
import Colorization.Proofs.Comparison.Listing
import Mathlib.Data.Set.BooleanAlgebra
import Mathlib.Order.CompletePartialOrder

/-! Theme filters and comparisons. Two filters of one capture: contents and scopes are the same, so
only the themes that they let through decide how the one is classified against the other; new themes
are material, lost themes are cosmetic. One filter of two captures: their comparison is filtered,
and the change is no graver than it was. -/
namespace Colorization

namespace ThemeColors

/-- A filter lets a listed theme through, and an empty one every theme. -/
def Passes (themes : List String) (theme : String) : Prop := themes = [] ∨ theme ∈ themes

theorem get?_restrict_eq_some_iff {colors : ThemeColors} :
    (colors.restrict themes).get? theme = some color ↔
      colors.get? theme = some color ∧ Passes themes theme := by
  unfold restrict Passes
  split
  next empty => simp [List.isEmpty_iff.mp empty]
  next listed =>
    have notEmpty : themes ≠ [] := fun empty => listed (List.isEmpty_iff.mpr empty)
    simp [Dict.get?_eq_some_iff, Dict.filter, notEmpty]

theorem within_restrict_iff (colors : ThemeColors) (former current : List String) :
    (colors.restrict current).Within (colors.restrict former) ↔
      ∀ theme color, colors.get? theme = some color → Passes current theme → Passes former theme := by
  simp only [Within, get?_restrict_eq_some_iff]
  constructor
  · intro within theme color found passes
    exact (within theme color ⟨found, passes⟩).2
  · rintro passes theme color ⟨found, current⟩
    exact ⟨found, passes theme color found current⟩

theorem get?_restrict_ne_iff {expected actual : ThemeColors} :
    (expected.restrict themes).get? theme ≠ (actual.restrict themes).get? theme ↔
      expected.get? theme ≠ actual.get? theme ∧ Passes themes theme := by
  by_cases passes : Passes themes theme
  · have kept (colors : ThemeColors) :
        (colors.restrict themes).get? theme = colors.get? theme :=
      Option.ext fun color => by simp [get?_restrict_eq_some_iff, passes]
    simp [kept, passes]
  · have dropped (colors : ThemeColors) : (colors.restrict themes).get? theme = none :=
      Option.ext fun color => by simp [get?_restrict_eq_some_iff, passes]
    simp [dropped, passes]

theorem Within.restrict {fewer more : ThemeColors} (within : fewer.Within more)
    (themes : List String) : (fewer.restrict themes).Within (more.restrict themes) := by
  intro theme color found
  obtain ⟨there, passes⟩ := get?_restrict_eq_some_iff.mp found
  exact get?_restrict_eq_some_iff.mpr ⟨within theme color there, passes⟩

theorem passes_congr (same : ∀ theme, theme ∈ first ↔ theme ∈ second) (theme : String) :
    Passes first theme ↔ Passes second theme := by
  simp only [Passes, List.eq_nil_iff_forall_not_mem, same]

theorem restrict_congr (same : ∀ theme, theme ∈ first ↔ theme ∈ second) (colors : ThemeColors) :
    colors.restrict first = colors.restrict second := by
  apply Dict.ext_get?
  intro theme
  apply Option.ext
  intro color
  rw [get?_restrict_eq_some_iff, get?_restrict_eq_some_iff, passes_congr same]

end ThemeColors

open ThemeColors (Passes within_restrict_iff)

namespace Capture

variable (capture : Capture) (former current : List String)

/-- The themes that occur in a capture and that a filter lets through. -/
def keptThemes (themes : List String) : Set String :=
  {theme | (∃ token ∈ capture, ∃ color, token.themeColors.get? theme = some color) ∧
    Passes themes theme}

theorem admits_restrict_iff : (capture.restrict former).Admits (capture.restrict current) ↔
    ∀ token ∈ capture, (token.themeColors.restrict current).Within (token.themeColors.restrict former) := by
  simp only [Admits, restrict, List.length_map, true_and, List.getElem?_map, Option.map_eq_some_iff]
  constructor
  · intro pairs token member
    obtain ⟨i, isThere⟩ := List.mem_iff_getElem?.mp member
    exact (pairs i _ _ ⟨token, isThere, rfl⟩ ⟨token, isThere, rfl⟩).2
  · rintro within i _ _ ⟨token, isThere, rfl⟩ ⟨token', isThere', rfl⟩
    cases isThere.symm.trans isThere'
    exact ⟨rfl, within token (List.mem_of_getElem? isThere)⟩

theorem admits_restrict_iff_subset : (capture.restrict former).Admits (capture.restrict current) ↔
    capture.keptThemes current ⊆ capture.keptThemes former := by
  simp only [admits_restrict_iff, within_restrict_iff]
  constructor
  · rintro passes theme ⟨⟨token, member, color, found⟩, late⟩
    exact ⟨⟨token, member, color, found⟩, passes token member theme color found late⟩
  · intro subset token member theme color found late
    exact (subset ⟨⟨token, member, color, found⟩, late⟩).2

theorem restrict_eq_iff : capture.restrict former = capture.restrict current ↔
    capture.keptThemes former = capture.keptThemes current := by
  constructor
  · intro same
    apply Set.Subset.antisymm
    · exact (capture.admits_restrict_iff_subset current former).mp (same ▸ .refl _)
    · exact (capture.admits_restrict_iff_subset former current).mp (same ▸ .refl _)
  · intro same
    have fewer := (capture.admits_restrict_iff former current).mp
      ((capture.admits_restrict_iff_subset former current).mpr same.ge)
    have more := (capture.admits_restrict_iff current former).mp
      ((capture.admits_restrict_iff_subset current former).mpr same.le)
    refine List.map_congr_left fun token member => ?_
    rw [(more token member).antisymm (fewer token member)]

/-- Only the filter has changed between two captures of the same tokens: that is material exactly if
some token has a colour that is new, and cosmetic exactly if themes are lost and none are new. -/
theorem classify_restrict :
    ((capture.restrict former).classify (capture.restrict current) = .material ↔
      ∃ token ∈ capture, ∃ theme color, token.themeColors.get? theme = some color ∧
        Passes current theme ∧ ¬ Passes former theme) ∧
    ((capture.restrict former).classify (capture.restrict current) = .identical ↔
      capture.keptThemes former = capture.keptThemes current) ∧
    ((capture.restrict former).classify (capture.restrict current) = .cosmetic ↔
      capture.keptThemes current ⊂ capture.keptThemes former) := by
  refine ⟨?_, ?_, ?_⟩
  · rw [classify_eq_material_iff, admits_restrict_iff]
    simp only [within_restrict_iff, not_forall, exists_prop]
  · rw [classify_eq_identical_iff, restrict_eq_iff]
  · rw [classify_eq_cosmetic_iff, ne_eq, restrict_eq_iff, admits_restrict_iff_subset,
      Set.ssubset_iff_subset_ne, and_comm, eq_comm]

end Capture

variable {themes : List String}

namespace Difference

/-- What a filter of both sides leaves of a difference. Colours may come to agree. -/
def restrict (themes : List String) (difference : Difference) : Option Difference :=
  match difference.aspect, difference.expected, difference.actual with
  | .theme, .colors expected, .colors actual =>
    if expected.restrict themes = actual.restrict themes then none
    else
      some { difference with
        expected := .colors (expected.restrict themes)
        actual := .colors (actual.restrict themes) }
  | _, _, _ => some difference

variable {difference left : Difference}

theorem restrict_of_aspect_ne (other : difference.aspect ≠ .theme) :
    difference.restrict themes = some difference := by
  obtain ⟨index, aspect, expected, actual⟩ := difference
  cases aspect with
  | content => rfl
  | scope => rfl
  | theme => contradiction

theorem aspect_of_restrict (remains : difference.restrict themes = some left) :
    left.aspect = difference.aspect := by
  unfold restrict at remains
  split at remains
  · split at remains
    · cases remains
    · cases remains
      rfl
  · cases remains
    rfl

end Difference

def Comparison.restrict (themes : List String) (comparison : Comparison) : Comparison :=
  ⟨comparison.differences.filterMap (Difference.restrict themes)⟩

/-- A filter touches the entries for themes only. -/
theorem Comparison.restrict_others (comparison : Comparison) :
    (comparison.restrict themes).differences.filter (fun entry => entry.aspect ≠ .theme) =
      comparison.differences.filter fun entry => entry.aspect ≠ .theme := by
  obtain ⟨entries⟩ := comparison
  simp only [restrict]
  induction entries with
  | nil => rfl
  | cons entry entries ih =>
    by_cases isTheme : entry.aspect = .theme
    · cases remains : entry.restrict themes with
      | none => simpa [remains, isTheme] using ih
      | some left => simpa [remains, Difference.aspect_of_restrict remains, isTheme] using ih
    · simpa [Difference.restrict_of_aspect_ne isTheme, isTheme] using ih

namespace Token

def restrict (themes : List String) (token : Token) : Token :=
  { token with themeColors := token.themeColors.restrict themes }

theorem differences_restrict (index : Nat) (expected actual : Token) :
    differences index (expected.restrict themes) (actual.restrict themes) =
      (differences index expected actual).filterMap (Difference.restrict themes) := by
  simp only [differences, restrict, List.filterMap_append, List.isEmpty_iff,
    ThemeColors.changedThemes_eq_nil_iff]
  congr 1
  · congr 1
    · by_cases same : expected.content = actual.content <;> simp [same, Difference.restrict]
    · by_cases same : expected.scope = actual.scope <;> simp [same, Difference.restrict]
  · by_cases same : expected.themeColors = actual.themeColors
    · simp [same]
    · by_cases alike : expected.themeColors.restrict themes = actual.themeColors.restrict themes
      · simp [same, alike, Difference.restrict]
      · simp [same, alike, Difference.restrict]

theorem pairDifferences_restrict (start : Nat) (baseline current : List Token) :
    pairDifferences start (baseline.map (restrict themes)) (current.map (restrict themes)) =
      (pairDifferences start baseline current).filterMap (Difference.restrict themes) := by
  induction baseline generalizing start current with
  | nil => rfl
  | cons expected baseline ih =>
    cases current with
    | nil => rfl
    | cons actual current =>
      simp only [List.map_cons, pairDifferences, List.filterMap_append]
      rw [differences_restrict, ih]

theorem differs_theme_restrict_iff (expected actual : Token) :
    (expected.restrict themes).Differs (actual.restrict themes) .theme ↔
      ∃ theme ∈ expected.themeColors.changedThemes actual.themeColors, Passes themes theme := by
  simp only [Differs, restrict, ThemeColors.get?_restrict_ne_iff,
    ThemeColors.mem_changedThemes_iff]

end Token

/-- How grave a change is. -/
def Change.severity : Change → Nat
  | .identical => 0
  | .cosmetic => 1
  | .material => 2

namespace Capture

variable (themes) (baseline current : Capture)

theorem lengthDifference_restrict :
    (baseline.restrict themes).lengthDifference (current.restrict themes) =
      (baseline.lengthDifference current).filterMap (Difference.restrict themes) := by
  simp only [lengthDifference, restrict, List.length_map]
  split <;> simp [Difference.restrict]

/-- Comparing what a filter leaves of two captures is filtering their comparison. -/
theorem compare_restrict :
    (baseline.restrict themes).compare (current.restrict themes) =
      (baseline.compare current).restrict themes := by
  simp only [compare, Comparison.restrict, List.filterMap_append, lengthDifference_restrict]
  congr 2
  exact Token.pairDifferences_restrict 0 baseline current

variable {baseline current} in
theorem getElem?_restrict_eq_some_iff {token : Token} {i : Nat} :
    (baseline.restrict themes)[i]? = some token ↔
      ∃ whole, baseline[i]? = some whole ∧ whole.restrict themes = token := by
  simp only [restrict, List.getElem?_map, Option.map_eq_some_iff, Token.restrict]

theorem exists_theme_entry_restrict_iff (i : Nat) :
    (∃ entry ∈ ((baseline.restrict themes).compare (current.restrict themes)).differences,
        entry.index = i ∧ entry.aspect = .theme) ↔
      ∃ expected actual, baseline[i]? = some expected ∧ current[i]? = some actual ∧
        ∃ theme ∈ expected.themeColors.changedThemes actual.themeColors, Passes themes theme := by
  rw [exists_entry_iff]
  constructor
  · rintro (⟨_, _, isExpected, isActual, differs⟩ | ⟨-, -, isContent⟩)
    · obtain ⟨expected, inBaseline, rfl⟩ := (getElem?_restrict_eq_some_iff themes).mp isExpected
      obtain ⟨actual, inCurrent, rfl⟩ := (getElem?_restrict_eq_some_iff themes).mp isActual
      exact ⟨expected, actual, inBaseline, inCurrent,
        (Token.differs_theme_restrict_iff expected actual).mp differs⟩
    · cases isContent
  · rintro ⟨expected, actual, inBaseline, inCurrent, changed⟩
    exact .inl ⟨expected.restrict themes, actual.restrict themes,
      (getElem?_restrict_eq_some_iff themes).mpr ⟨expected, inBaseline, rfl⟩,
      (getElem?_restrict_eq_some_iff themes).mpr ⟨actual, inCurrent, rfl⟩,
      (Token.differs_theme_restrict_iff expected actual).mpr changed⟩

variable {baseline current} in
theorem Admits.restrict (admits : baseline.Admits current) :
    (baseline.restrict themes).Admits (current.restrict themes) := by
  refine ⟨by simpa [Capture.restrict] using admits.1, fun i before now isBefore isNow => ?_⟩
  obtain ⟨expected, inBaseline, rfl⟩ := (getElem?_restrict_eq_some_iff themes).mp isBefore
  obtain ⟨actual, inCurrent, rfl⟩ := (getElem?_restrict_eq_some_iff themes).mp isNow
  obtain ⟨content, within⟩ := admits.2 i expected actual inBaseline inCurrent
  exact ⟨content, within.restrict themes⟩

theorem severity_restrict_le :
    ((baseline.restrict themes).classify (current.restrict themes)).severity ≤
      (baseline.classify current).severity := by
  cases change : baseline.classify current with
  | identical =>
    have same := (classify_eq_identical_iff baseline current).mp change
    have unchanged := (classify_eq_identical_iff (baseline.restrict themes)
      (current.restrict themes)).mpr (same ▸ rfl)
    rw [unchanged]
  | cosmetic =>
    have admits := ((classify_eq_cosmetic_iff baseline current).mp change).2
    have tolerated := (classify_ne_material_iff _ _).mpr (admits.restrict themes)
    cases filtered : (baseline.restrict themes).classify (current.restrict themes) with
    | identical => decide
    | cosmetic => decide
    | material => exact absurd filtered tolerated
  | material =>
    cases (baseline.restrict themes).classify (current.restrict themes) <;> decide

theorem restrict_congr {first second : List String}
    (same : ∀ theme, theme ∈ first ↔ theme ∈ second) (capture : Capture) :
    capture.restrict first = capture.restrict second := by
  simp only [restrict, ThemeColors.restrict_congr same]

/-- Both sides of a comparison go through one filter. What is said of contents, scopes and lengths
stays as it is, and a token's colours are listed if they differ in a theme that the filter keeps. So
the change is no graver than without it, and only which themes the filter names matters. -/
theorem compare_filtered :
    (((baseline.restrict themes).compare (current.restrict themes)).differences.filter
        (fun entry => entry.aspect ≠ .theme) =
      (baseline.compare current).differences.filter fun entry => entry.aspect ≠ .theme) ∧
    (∀ i, (∃ entry ∈ ((baseline.restrict themes).compare (current.restrict themes)).differences,
        entry.index = i ∧ entry.aspect = .theme) ↔
      ∃ expected actual, baseline[i]? = some expected ∧ current[i]? = some actual ∧
        ∃ theme ∈ expected.themeColors.changedThemes actual.themeColors, Passes themes theme) ∧
    ((baseline.restrict themes).classify (current.restrict themes)).severity ≤
      (baseline.classify current).severity ∧
    ∀ others : List String, (∀ theme, theme ∈ others ↔ theme ∈ themes) →
      (baseline.restrict others).compare (current.restrict others) =
          (baseline.restrict themes).compare (current.restrict themes) ∧
        (baseline.restrict others).classify (current.restrict others) =
          (baseline.restrict themes).classify (current.restrict themes) := by
  refine ⟨?_, exists_theme_entry_restrict_iff themes baseline current,
    severity_restrict_le themes baseline current, ?_⟩
  · rw [compare_restrict]
    exact Comparison.restrict_others _
  · intro others same
    rw [restrict_congr same baseline, restrict_congr same current]
    exact ⟨rfl, rfl⟩

/-- A filter that names one of its themes twice and has them in another order. -/
theorem compare_filtered_repeated :
    let former : Capture :=
      [⟨"let", "keyword", .ofList [("dark", "#569cd6"), ("light", "#0000ff")]⟩]
    let later : Capture :=
      [⟨"let", "storage", .ofList [("contrast", "#ffffff"), ("dark", "#569cd6")]⟩]
    (∀ theme, theme ∈ ["light", "dark", "light"] ↔ theme ∈ ["dark", "light"]) ∧
      (former.restrict ["light", "dark", "light"]).compare
          (later.restrict ["light", "dark", "light"]) =
        (former.restrict ["dark", "light"]).compare (later.restrict ["dark", "light"]) ∧
      (former.restrict ["light", "dark", "light"]).classify
          (later.restrict ["light", "dark", "light"]) =
        (former.restrict ["dark", "light"]).classify (later.restrict ["dark", "light"]) := by
  intro former later
  have same : ∀ theme, theme ∈ ["light", "dark", "light"] ↔ theme ∈ ["dark", "light"] := by
    intro theme
    simp only [List.mem_cons, List.not_mem_nil, or_false]
    tauto
  exact ⟨same, (compare_filtered ["dark", "light"] former later).2.2.2 _ same⟩

end Capture

end Colorization
