import Colorization.Fixtures
import Colorization.Proofs.Path.Components
import Colorization.Proofs.Path.Order
import Mathlib.Data.List.TakeWhile

/-! Which names have a wanted extension, and in which order the paths of one directory are. -/
namespace Colorization

namespace Path

theorem splitName_of_dot {name : String} {front back : List Char}
    (text : name.toList = front ++ '.' :: back) (noDot : '.' ∉ back) :
    splitName name =
      if front = [] then (name, none) else (String.ofList front, some (String.ofList back)) := by
  have after : (back.reverse ++ '.' :: front.reverse).takeWhile (· ≠ '.') = back.reverse := by
    rw [List.takeWhile_append_of_pos fun c member => ?_, List.takeWhile_cons_of_neg (by simp),
      List.append_nil]
    have isBack := List.mem_reverse.mp member
    exact decide_eq_true fun dot => noDot (dot ▸ isBack)
  have backwards : name.toList.reverse = back.reverse ++ '.' :: front.reverse := by simp [text]
  simp only [splitName, backwards, after, List.drop_left]
  cases hfront : front.reverse with
  | nil => rw [if_pos (List.reverse_eq_nil_iff.mp hfront)]
  | cons c rest =>
    have notEmpty : front ≠ [] := by
      rintro rfl
      cases hfront
    have isFront : (c :: rest).reverse = front := by rw [← hfront, List.reverse_reverse]
    simp only [if_neg notEmpty, isFront, List.reverse_reverse]

theorem splitName_of_not_mem {name : String} (noDot : '.' ∉ name.toList) :
    splitName name = (name, none) := by
  have all : name.toList.reverse.takeWhile (· ≠ '.') = name.toList.reverse := by
    have plain : ∀ c ∈ name.toList.reverse, decide (c ≠ '.') = true := fun c member =>
      decide_eq_true fun dot => noDot (dot ▸ List.mem_reverse.mp member)
    exact List.takeWhile_eq_self_iff.mpr plain
  simp only [splitName, all, List.drop_length]

/-- The last dot of a text. -/
theorem exists_last_dot {cs : List Char} (dot : '.' ∈ cs) :
    ∃ front back, cs = front ++ '.' :: back ∧ '.' ∉ back := by
  obtain ⟨back, front, text, noDot⟩ := List.eq_append_cons_of_mem (List.mem_reverse.mpr dot)
  refine ⟨front.reverse, back.reverse, ?_, fun member => noDot (List.mem_reverse.mp member)⟩
  simpa using congrArg List.reverse text

/-- A name is split at its last dot, unless it begins with that. -/
theorem splitName_eq_iff {name stem extension : String} :
    splitName name = (stem, some extension) ↔ stem ≠ "" ∧ '.' ∉ extension.toList ∧
      name.toList = stem.toList ++ '.' :: extension.toList := by
  constructor
  · intro split
    by_cases dot : '.' ∈ name.toList
    · obtain ⟨front, back, text, noDot⟩ := exists_last_dot dot
      rw [splitName_of_dot text noDot] at split
      by_cases first : front = []
      · rw [if_pos first] at split
        cases split
      · rw [if_neg first] at split
        cases split
        simpa [noDot, text] using first
    · rw [splitName_of_not_mem dot] at split
      cases split
  · rintro ⟨notEmpty, noDot, text⟩
    rw [splitName_of_dot text noDot, if_neg (by simpa using notEmpty), String.ofList_toList,
      String.ofList_toList]

/-- The name ends in a dot and an extension without dots, which is listed, with dots before it or
without. The last dot of a name is no part of one if the name begins with it. -/
def Wanted (extensions : List String) (name : String) : Prop :=
  extensions = [] ∨ ∃ stem extension : List Char, stem ≠ [] ∧ '.' ∉ extension ∧
    name.toList = stem ++ '.' :: extension ∧
    ∃ listed ∈ extensions, ∃ dots, listed.toList = List.replicate dots '.' ++ extension

theorem dropWhile_dots_eq_iff {listed extension : List Char} (noDot : '.' ∉ extension) :
    listed.dropWhile (· = '.') = extension ↔ ∃ dots, listed = List.replicate dots '.' ++ extension := by
  constructor
  · rintro rfl
    refine ⟨(listed.takeWhile (· = '.')).length, ?_⟩
    have isDots : listed.takeWhile (· = '.') = List.replicate _ '.' :=
      List.eq_replicate_of_mem fun c member => by simpa using List.mem_takeWhile_imp member
    rw [← isDots, List.takeWhile_append_dropWhile]
  · rintro ⟨dots, rfl⟩
    rw [List.dropWhile_append_of_pos (by simp)]
    cases extension with
    | nil => rfl
    | cons c rest =>
      rw [List.mem_cons, not_or] at noDot
      exact List.dropWhile_cons_of_neg (by simpa using Ne.symm noDot.1)

theorem hasExtension_iff {path : Path} {name : String} {extensions : List String}
    (named : path.fileName? = some name) :
    path.hasExtension extensions = true ↔ Wanted extensions name := by
  unfold hasExtension Wanted
  rw [Bool.or_eq_true, List.isEmpty_iff]
  refine or_congr_right ?_
  simp only [extension?, named, Option.bind_some]
  have split : ∀ stem extension : List Char, stem ≠ [] → '.' ∉ extension →
      name.toList = stem ++ '.' :: extension →
      splitName name = (String.ofList stem, some (String.ofList extension)) :=
    fun stem extension notEmpty noDot text =>
      splitName_eq_iff.mpr ⟨by simpa using notEmpty, by simpa using noDot, by simpa using text⟩
  rcases parts : splitName name with ⟨stem, _ | extension⟩
  · refine ⟨nofun, ?_⟩
    rintro ⟨stem', extension, notEmpty, noDot, text, -⟩
    cases parts.symm.trans (split stem' extension notEmpty noDot text)
  · obtain ⟨notEmpty, noDot, text⟩ := splitName_eq_iff.mp parts
    simp only [List.any_eq_true, decide_eq_true_eq, dropWhile_dots_eq_iff noDot]
    constructor
    · intro isListed
      exact ⟨stem.toList, extension.toList, by simpa using notEmpty, noDot, text, isListed⟩
    · rintro ⟨stem', extension', notEmpty', noDot', text', isListed⟩
      cases parts.symm.trans (split stem' extension' notEmpty' noDot' text')
      rwa [String.toList_ofList]

/-- Names in one directory are in the order of the names. -/
theorem components_join_lt_iff (directory : Path) {one other : String} (plain : Plain one.toList)
    (plain' : Plain other.toList) :
    (directory.join ⟨one⟩).components < (directory.join ⟨other⟩).components ↔ one < other := by
  have parts : ∀ {name : String}, Plain name.toList →
      (directory.join ⟨name⟩).components = directory.components ++ [.name name] := fun {name} plain => by
    rw [← String.ofList_toList (s := name), components_join plain]
  rw [parts plain, parts plain']
  induction directory.components with
  | nil => simp [List.cons_lt_cons_iff, Component.lt_iff, Component.rank]
  | cons component rest ih =>
    simpa [List.cons_lt_cons_iff, Component.lt_iff] using ih

end Path

end Colorization
