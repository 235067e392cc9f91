import Colorization.Proofs.Except
import Colorization.Proofs.FileSystem.Leads

/-! The two ways in which requests use a path: what it leads to, and which entry of which
directory it ends with. -/
namespace Colorization.FileSystem

theorem find_eq_ok_iff {files : FileSystem} {path : Path} :
    files.find path = .ok (location, node) ↔ check path = .ok () ∧
      ∃ used ≤ maxLinks, Leads files used (files.start path) (Path.segments path.text.toList)
        location node := by
  simp only [find, place, bind, Except.bind]
  rw [← walk_eq_ok_iff]
  cases checked : check path with
  | error error => simp
  | ok =>
    simp only [true_and]
    cases walked : files.walk true maxLinks (files.start path) (Path.segments path.text.toList) with
    | error error => simp
    | ok place => cases place <;> simp [pure, Except.pure, throw, throwThe, MonadExceptOf.throw]

/-- The path ends with `name` in a directory, and after it with a slash or not. -/
def EndsIn (files : FileSystem) (path : Path) (folder : Location) (name : Segment)
    (slash : Bool) : Prop :=
  ∃ before blanks used mode, Path.segments path.text.toList = before ++ name :: blanks ∧
    (∀ blank ∈ blanks, blank = []) ∧ slash = decide (blanks ≠ []) ∧ used ≤ maxLinks ∧
    Leads files used (files.start path) before folder (.directory mode)

/-- What is left of some segments without the empty ones at their end. -/
theorem dropWhile_reverse_eq_cons {segments before : List Segment}
    (ends : segments.reverse.dropWhile (·.isEmpty) = name :: before) :
    ∃ blanks, segments = before.reverse ++ name :: blanks ∧ (∀ blank ∈ blanks, blank = []) ∧
      name ≠ [] := by
  refine ⟨(segments.reverse.takeWhile (·.isEmpty)).reverse, ?_, ?_, ?_⟩
  · have whole := List.takeWhile_append_dropWhile (p := (·.isEmpty)) (l := segments.reverse)
    rw [ends] at whole
    simpa using (congrArg List.reverse whole).symm
  · intro blank member
    have all : (segments.reverse.takeWhile (·.isEmpty)).all (·.isEmpty) = true := List.all_takeWhile
    simpa using List.all_eq_true.mp all blank (List.mem_reverse.mp member)
  · rintro rfl
    have head := List.head?_dropWhile_not List.isEmpty segments.reverse
    simp [ends] at head

theorem dropWhile_reverse_append (before : List Segment) {blanks : List Segment} (notEmpty : name ≠ [])
    (empty : ∀ blank ∈ blanks, blank = []) :
    (before ++ name :: blanks).reverse.dropWhile (·.isEmpty) = name :: before.reverse := by
  have skip : ∀ blank ∈ blanks.reverse, List.isEmpty blank = true := by
    intro blank member
    simp [empty blank (List.mem_reverse.mp member)]
  rw [List.reverse_append, List.reverse_cons, List.append_assoc,
    List.dropWhile_append_of_pos skip]
  simp [notEmpty]

theorem head?_reverse_append {before blanks : List Segment} (notEmpty : name ≠ [])
    (empty : ∀ blank ∈ blanks, blank = []) :
    ((before ++ name :: blanks).reverse.head? = some []) ↔ blanks ≠ [] := by
  rw [List.head?_reverse]
  rcases List.eq_nil_or_concat blanks with rfl | ⟨init, last, rfl⟩
  · simp [notEmpty]
  · have blank : last = [] := empty last (by simp)
    simp [blank, List.getLast?_cons]

theorem entry?_eq_ok_iff {files : FileSystem} {path : Path} :
    files.entry? path = .ok (some ⟨location, slash⟩) ↔ check path = .ok () ∧
      ∃ folder name, Named name ∧ EndsIn files path folder name slash ∧
        location = folder ++ [String.ofList name] := by
  unfold EndsIn
  constructor
  · intro found
    obtain ⟨⟨⟩, checked, rest⟩ := bind_eq_ok_iff.mp found
    refine ⟨checked, ?_⟩
    generalize Path.segments path.text.toList = segments at rest ⊢
    simp only at rest
    split at rest
    · cases rest
    next name before ends =>
      obtain ⟨blanks, rfl, empty, notEmpty⟩ := dropWhile_reverse_eq_cons ends
      obtain ⟨place, walked, rest⟩ := bind_eq_ok_iff.mp rest
      obtain ⟨folder, mode, rfl⟩ : ∃ folder mode, place = .node folder (.directory mode) := by
        cases place with
        | free => cases rest
        | node folder node =>
          cases node with
          | directory mode => exact ⟨folder, mode, rfl⟩
          | file | link | device => cases rest
      simp only [head?_reverse_append notEmpty empty] at rest
      split at rest
      · cases rest
      next plain =>
        split at rest
        · cases rest
        next short =>
          rw [not_or] at plain
          obtain ⟨used, bound, leads⟩ := leads_of_walk walked
          cases rest
          exact ⟨folder, name, ⟨notEmpty, plain.1, plain.2, by simpa using short⟩,
            ⟨_, blanks, used, mode, rfl, empty, rfl, bound, leads⟩, rfl⟩
  · rintro ⟨checked, folder, name, named, ⟨before, blanks, used, mode, text, empty, rfl, bound, leads⟩,
      rfl⟩
    refine bind_eq_ok_iff.mpr ⟨(), checked, ?_⟩
    have walked := leads.walk bound
    have plain : ¬ (name = ['.'] ∨ name = ['.', '.']) := by simp [named.notHere, named.notUp]
    simp only [text, dropWhile_reverse_append before named.notEmpty empty, List.reverse_reverse]
    refine bind_eq_ok_iff.mpr ⟨_, walked, ?_⟩
    simp only [if_neg plain, named.short, head?_reverse_append named.notEmpty empty]
    rfl

end Colorization.FileSystem
