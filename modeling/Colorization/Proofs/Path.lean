import Colorization.Path

/-! The segments of a path, and of a path with a name put behind it. -/
namespace Colorization.Path

theorem segments_ne_nil (cs : List Char) : segments cs ≠ [] := by
  induction cs with
  | nil => simp [segments]
  | cons c rest ih =>
    rw [segments]
    split
    · simp
    · split <;> simp

/-- A slash is where the segments of a text can be taken apart. -/
theorem segments_append_slash (cs rest : List Char) :
    segments (cs ++ '/' :: rest) = segments cs ++ segments rest := by
  induction cs with
  | nil => simp [segments]
  | cons c cs ih =>
    rw [List.cons_append, segments, segments, ih]
    split
    · rfl
    · cases parts : segments cs with
      | nil => exact absurd parts (segments_ne_nil cs)
      | cons first others => rfl

theorem segments_of_not_mem {cs : List Char} (plain : '/' ∉ cs) : segments cs = [cs] := by
  induction cs with
  | nil => rfl
  | cons c cs ih =>
    rw [List.mem_cons, not_or] at plain
    rw [segments, if_neg (Ne.symm plain.1), ih plain.2]

theorem isAbsolute_of_not_mem {name : List Char} (plain : '/' ∉ name) :
    isAbsolute ⟨String.ofList name⟩ = false := by
  cases name with
  | nil => rfl
  | cons c rest =>
    rw [List.mem_cons, not_or] at plain
    simpa [isAbsolute] using Ne.symm plain.1

/-- Behind a path that ends in a slash a name takes the place of the empty last segment;
behind any other it is one segment more. -/
theorem segments_join {left : Path} {name : List Char} (plain : '/' ∉ name)
    (notEmpty : left.text ≠ "") :
    (∃ before, segments left.text.toList = before ++ [[]] ∧
      segments (left.join ⟨String.ofList name⟩).text.toList = before ++ [name]) ∨
    segments (left.join ⟨String.ofList name⟩).text.toList = segments left.text.toList ++ [name] := by
  have relative := isAbsolute_of_not_mem plain
  have nonempty : left.text.isEmpty = false := by simpa using notEmpty
  by_cases slash : left.text.toList.getLast? = some '/'
  · left
    obtain ⟨init, ends⟩ := List.getLast?_eq_some_iff.mp slash
    refine ⟨segments init, ?_, ?_⟩
    · rw [ends, segments_append_slash]
      rfl
    · simp [join, relative, ends, segments_append_slash, segments_of_not_mem plain]
  · right
    simp [join, relative, nonempty, slash, segments_append_slash, segments_of_not_mem plain]

theorem isAbsolute_join (left : Path) {name : List Char} (plain : '/' ∉ name) :
    (left.join ⟨String.ofList name⟩).isAbsolute = left.isAbsolute := by
  have relative := isAbsolute_of_not_mem plain
  rw [join, if_neg (by simp [relative])]
  by_cases empty : left.text = ""
  · have same : left.isAbsolute = false := by simp [isAbsolute, empty]
    simpa [empty, same] using relative
  · obtain ⟨c, rest, text⟩ := List.exists_cons_of_ne_nil (show left.text.toList ≠ [] by simpa using empty)
    split <;> simp [isAbsolute, text]

end Colorization.Path
