import Colorization.Yaml.Lexeme

/-! Marks and cursors that move over a known text, and what is known of a printable character. -/
namespace Colorization.Yaml

section Characters

variable {c : Char}

theorem isAllowed_of_isPrintable (printable : isPrintable c = true) : isAllowed c = true := by
  simp [isAllowed, printable]

/-- What is not printable is none of the printable characters. -/
theorem ne_of_isPrintable {other : Char} (printable : isPrintable c = true)
    (hidden : isPrintable other = false) : c ≠ other := by
  rintro rfl
  rw [printable] at hidden
  cases hidden

theorem isBlank_iff_of_isPrintable (printable : isPrintable c = true) : isBlank c = true ↔ c = ' ' := by
  have notTab : c ≠ '\t' := ne_of_isPrintable printable rfl
  simp [isBlank, notTab]

theorem not_isBlank_of_ne_space (printable : isPrintable c = true) (notSpace : c ≠ ' ') :
    isBlank c = false := by
  rw [← Bool.not_eq_true, isBlank_iff_of_isPrintable printable]
  exact notSpace

theorem isGap_of_isPrintable (printable : isPrintable c = true) :
    isGap c = (decide (c = ' ') || isBreak c) := by
  have notTab : c ≠ '\t' := ne_of_isPrintable printable rfl
  have notNull : c ≠ '\x00' := ne_of_isPrintable printable (by decide)
  simp [isGap, isBlank, notTab, notNull]

theorem not_isBreak_of_isBlank (blank : isBlank c = true) : isBreak c = false := by
  have cases : c = ' ' ∨ c = '\t' := by simpa [isBlank] using blank
  rcases cases with rfl | rfl <;> rfl

theorem not_isBlank_of_isBreak (broken : isBreak c = true) : isBlank c = false := by
  cases blank : isBlank c with
  | false => rfl
  | true => rw [not_isBreak_of_isBlank blank] at broken; cases broken

/-- Printable text has no line break that is read as another. -/
theorem unifyBreaks_of_isPrintable {cs : List Char} (printable : ∀ c ∈ cs, isPrintable c = true) :
    unifyBreaks cs = cs := by
  induction cs with
  | nil => rfl
  | cons c rest ih =>
    rw [List.forall_mem_cons] at printable
    have notReturn : c ≠ '\r' := ne_of_isPrintable printable.1 (by decide)
    have notNextLine : c ≠ '\x85' := ne_of_isPrintable printable.1 (by decide)
    rw [unifyBreaks, ih printable.2, if_neg (by simp [notReturn, notNextLine])]
    rintro _ rfl
    exact absurd rfl notReturn

end Characters

namespace Mark

/-- The mark behind a text. -/
def after (mark : Mark) (cs : List Char) : Mark := cs.foldl advance mark

variable {mark : Mark} {c : Char} {cs more : List Char}

@[simp] theorem after_nil : mark.after [] = mark := rfl

@[simp] theorem after_cons : mark.after (c :: cs) = (mark.advance c).after cs := rfl

@[simp] theorem after_append : mark.after (cs ++ more) = (mark.after cs).after more :=
  List.foldl_append

theorem advance_of_not_isBreak (inLine : isBreak c = false) :
    mark.advance c = ⟨mark.index + 1, mark.line, mark.column + 1⟩ := by
  simp [advance, inLine]

theorem advance_of_isBreak (broken : isBreak c = true) :
    mark.advance c = ⟨mark.index + 1, mark.line + 1, 0⟩ := by
  simp [advance, broken]

theorem line_le_advance (mark : Mark) (c : Char) : mark.line ≤ (mark.advance c).line := by
  unfold advance
  split <;> simp

theorem line_le_after (mark : Mark) (cs : List Char) : mark.line ≤ (mark.after cs).line := by
  induction cs generalizing mark with
  | nil => exact Nat.le_refl _
  | cons c cs ih => exact Nat.le_trans (line_le_advance mark c) (ih _)

theorem line_lt_after (mark : Mark) (member : c ∈ cs) (broken : isBreak c = true) :
    mark.line < (mark.after cs).line := by
  obtain ⟨before, later, rfl⟩ := List.append_of_mem member
  have last := line_le_after ((mark.after before).advance c) later
  rw [advance_of_isBreak broken] at last
  rw [after_append, after_cons, advance_of_isBreak broken]
  exact Nat.lt_of_lt_of_le (Nat.lt_succ_of_le (line_le_after mark before)) last

/-- Text without breaks stays in its line. -/
theorem after_of_unbroken (inLine : ∀ c ∈ cs, isBreak c = false) :
    mark.after cs = ⟨mark.index + cs.length, mark.line, mark.column + cs.length⟩ := by
  induction cs generalizing mark with
  | nil => rfl
  | cons c cs ih =>
    rw [List.forall_mem_cons] at inLine
    rw [after_cons, ih inLine.2, advance_of_not_isBreak inLine.1, List.length_cons]
    simp only [mk.injEq, true_and]
    omega

theorem after_spaces (n : Nat) : mark.after (List.replicate n ' ') =
    ⟨mark.index + n, mark.line, mark.column + n⟩ := by
  rw [after_of_unbroken fun c member => List.eq_of_mem_replicate member ▸ rfl, List.length_replicate]

end Mark

namespace Cursor

variable {mark : Mark} {cs rest : List Char}

theorem skip_append (mark : Mark) (cs rest : List Char) :
    (⟨mark, cs ++ rest⟩ : Cursor).skip cs.length = ⟨mark.after cs, rest⟩ := by
  induction cs generalizing mark with
  | nil => rfl
  | cons c cs ih => exact ih _

/-- A run of characters that pass the test, up to one that does not. -/
theorem spanFrom_append {test : Char → Bool} (passes : ∀ c ∈ cs, test c = true)
    (stops : ∀ c ∈ rest.head?, test c = false) :
    spanFrom test mark (cs ++ rest) = (cs, ⟨mark.after cs, rest⟩) := by
  induction cs generalizing mark with
  | nil =>
    cases rest with
    | nil => rfl
    | cons c rest => simp [spanFrom, stops c rfl]
  | cons c cs ih =>
    rw [List.forall_mem_cons] at passes
    rw [List.cons_append, spanFrom, if_pos passes.1, ih passes.2]
    rfl

/-- Away from the start of a line there is no document mark. -/
theorem not_atAnyDocumentMark_of_column {cursor : Cursor} (inside : 0 < cursor.mark.column) :
    cursor.atAnyDocumentMark = false := by
  have notStart : cursor.column ≠ 0 := Nat.pos_iff_ne_zero.mp inside
  simp [atAnyDocumentMark, atDocumentMark, notStart]

/-- A document mark begins with a dash or a dot. -/
theorem not_atAnyDocumentMark_of_head {cursor : Cursor}
    (other : ∀ c ∈ cursor.rest.head?, c ≠ '-' ∧ c ≠ '.') : cursor.atAnyDocumentMark = false := by
  obtain ⟨mark, _ | ⟨c, rest⟩⟩ := cursor
  · simp [atAnyDocumentMark, atDocumentMark, startMark, endMark]
  · obtain ⟨notDash, notDot⟩ := other c rfl
    simp [atAnyDocumentMark, atDocumentMark, startMark, endMark, notDash.symm, notDot.symm]

end Cursor

end Colorization.Yaml
