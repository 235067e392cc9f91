import Colorization.Proofs.Yaml.Cursor
import Colorization.Yaml.Printer
import Colorization.Yaml.Scalar

/-! A plain text is read up to the end of its line, with the blank space in front of the next
one. -/
namespace Colorization.Yaml

/-- Blank space in a line. -/
def Pending.ofBlanks (blanks : List Char) : Pending := ⟨blanks, false, [], []⟩

@[simp] theorem Pending.ofBlanks_nil : ofBlanks [] = none := rfl

@[simp] theorem Pending.broken_none : none.broken = false := rfl

@[simp] theorem Pending.joined_none : none.joined = [] := rfl

@[simp] theorem Pending.isNone_none : none.isNone = true := rfl

@[simp] theorem Pending.broken_ofBlanks (blanks : List Char) : (ofBlanks blanks).broken = false := rfl

@[simp] theorem Pending.joined_ofBlanks (blanks : List Char) : (ofBlanks blanks).joined = blanks := rfl

@[simp] theorem Pending.addBlank_ofBlanks (blanks : List Char) (c : Char) :
    (ofBlanks blanks).addBlank c = ofBlanks (blanks ++ [c]) := rfl

@[simp] theorem Pending.isNone_ofBlanks (blanks : List Char) :
    (ofBlanks blanks).isNone = blanks.isEmpty := by
  simp [isNone, ofBlanks]

@[simp] theorem Pending.flush_ofBlanks (blanks before : List Char) :
    (ofBlanks blanks).flush before = blanks.reverse ++ before := by
  simp [flush, joined, ofBlanks]

/-- What may come first in a line: nothing that is passed over. -/
def OpensLine (rest : List Char) : Prop :=
  ∀ c ∈ rest.head?, isBlank c = false ∧ isBreak c = false ∧ c ≠ '#' ∧ isOrderMark c = false

instance (rest : List Char) : Decidable (OpensLine rest) :=
  decidable_of_iff
    (rest.head?.all (fun c => !isBlank c && !isBreak c && c != '#' && !isOrderMark c) = true)
    (by cases rest <;> simp [OpensLine, and_assoc])

variable {indent : Int} {before blanks cs rest tail : List Char} {mark : Mark} {c : Char}

theorem innerIndicator_tail (free : innerIndicator (c :: cs) = false) : innerIndicator cs = false := by
  cases cs with
  | nil => rfl
  | cons next rest =>
    rw [innerIndicator, Bool.or_eq_false_iff] at free
    exact free.2

/-- No number sign stands behind a space. -/
theorem head?_ne_hash (free : innerIndicator (' ' :: cs) = false) : cs.head? ≠ some '#' := by
  cases cs with
  | nil => simp
  | cons next rest =>
    rw [innerIndicator] at free
    rintro ⟨⟩
    cases free

/-- Behind a colon the text goes on, and not with a gap. -/
theorem gapNext_of_colon (free : innerIndicator (':' :: cs) = false) (tail : List Char) :
    gapNext (cs ++ tail) = false := by
  cases cs with
  | nil => cases free
  | cons next rest =>
    rw [innerIndicator, Bool.or_eq_false_iff, Bool.or_eq_false_iff] at free
    simpa [gapNext] using free.1.1

theorem plainFrom_space (before blanks : List Char) (mark : Mark) (rest : List Char) :
    plainFrom false indent before (.ofBlanks blanks) mark (' ' :: rest) =
      plainFrom false indent before (.ofBlanks (blanks ++ [' '])) (mark.advance ' ') rest := by
  rw [plainFrom, if_pos (by rfl), if_neg (by simp), Pending.addBlank_ofBlanks]

/-- A character that belongs to the text brings the blank space before it along. -/
theorem plainFrom_char (notBlank : isBlank c = false) (inLine : isBreak c = false)
    (deep : indent ≤ mark.column) (inside : 0 < mark.column) (noComment : blanks ≠ [] → c ≠ '#')
    (noValue : c = ':' → gapNext rest = false) :
    plainFrom false indent before (.ofBlanks blanks) mark (c :: rest) =
      plainFrom false indent (c :: (blanks.reverse ++ before)) .none (mark.advance c) rest := by
  have noMark : Cursor.atAnyDocumentMark ⟨mark, c :: rest⟩ = false :=
    Cursor.not_atAnyDocumentMark_of_column inside
  have notShallow : ¬ (mark.column : Int) < indent := by omega
  have noComment : ((!blanks.isEmpty) && decide (c = '#')) = false := by
    cases blanks with
    | nil => rfl
    | cons blank more => simp [noComment]
  have noValue : (decide (c = ':') && gapNext rest) = false := by
    by_cases colon : c = ':' <;> simp [colon, noValue]
  rw [plainFrom]
  simp only [notBlank, inLine, noMark, notShallow, noComment, noValue, Pending.isNone_ofBlanks,
    Pending.flush_ofBlanks, Bool.false_eq_true, if_false, decide_false, Bool.and_false, Bool.false_and]

/-- The characters of a plain text. The induction is on the text; the blanks are those between the
last character and what is left of it. -/
theorem plainFrom_text (free : innerIndicator cs = false) (printable : ∀ c ∈ cs, isPrintable c = true)
    (inLine : ∀ c ∈ cs, isBreak c = false) (closed : cs.getLast? ≠ some ' ')
    (noComment : blanks ≠ [] → cs.head? ≠ some '#') (goesOn : blanks ≠ [] → cs ≠ [])
    (deep : indent ≤ mark.column) (inside : 0 < mark.column) :
    plainFrom false indent before (.ofBlanks blanks) mark (cs ++ tail) =
      plainFrom false indent (cs.reverse ++ (blanks.reverse ++ before)) .none (mark.after cs) tail := by
  induction cs generalizing before blanks mark with
  | nil =>
    cases blanks with
    | nil => rfl
    | cons blank more => exact absurd rfl (goesOn (by simp))
  | cons c cs ih =>
    rw [List.forall_mem_cons] at printable inLine
    have column : (mark.advance c).column = mark.column + 1 := by
      rw [Mark.advance_of_not_isBreak inLine.1]
    have later : cs.getLast? ≠ some ' ' := by
      cases cs with
      | nil => simp
      | cons next rest => simpa using closed
    by_cases space : c = ' '
    · subst space
      have notEmpty : cs ≠ [] := by
        rintro rfl
        exact closed rfl
      rw [List.cons_append, plainFrom_space, ih (innerIndicator_tail free) printable.2 inLine.2 later
        (fun _ => head?_ne_hash free) (fun _ => notEmpty) (by omega) (by omega)]
      simp
    · have notBlank := not_isBlank_of_ne_space printable.1 space
      have noValue : c = ':' → gapNext (cs ++ tail) = false := by
        rintro rfl
        exact gapNext_of_colon free tail
      rw [List.cons_append, plainFrom_char notBlank inLine.1 deep inside
        (fun some same => noComment some (by rw [same]; rfl)) noValue]
      rw [← Pending.ofBlanks_nil, ih (innerIndicator_tail free) printable.2 inLine.2 later nofun nofun
        (by omega) (by omega)]
      simp

/-- Blanks at the start of a line. -/
theorem plainFrom_spaces {pending : Pending} (broken : pending.broken = true) (n : Nat) :
    plainFrom false indent before pending mark (List.replicate n ' ' ++ rest) =
      plainFrom false indent before pending (mark.after (List.replicate n ' ')) rest := by
  induction n generalizing mark with
  | zero => rfl
  | succ n ih =>
    have same : pending.addBlank ' ' = pending := by simp [Pending.addBlank, broken]
    rw [List.replicate_succ, List.cons_append, plainFrom, if_pos (by rfl), if_neg (by simp), same, ih]
    rfl

/-- The text has ended with its line if the next line is not deeper. -/
theorem plainFrom_end {column : Nat} (opens : OpensLine rest) (shallow : (column : Int) < indent) :
    plainFrom false indent before .none mark ('\n' :: (List.replicate column ' ' ++ rest)) =
      some ⟨before.reverse, ⟨mark.after ('\n' :: List.replicate column ' '), rest⟩, true⟩ := by
  have broken : Pending.none.addBreak '\n' = ⟨[], true, ['\n'], []⟩ := rfl
  rw [plainFrom, if_neg (by decide), if_pos (by decide), broken, plainFrom_spaces rfl, Mark.after_cons]
  cases rest with
  | nil => rfl
  | cons c rest =>
    obtain ⟨notBlank, inLine, -, -⟩ := opens c rfl
    have atColumn : ((mark.advance '\n').after (List.replicate column ' ')).column = column := by
      rw [Mark.after_spaces, Mark.advance_of_isBreak rfl]
      simp
    simp [plainFrom, notBlank, inLine, Pending.isNone, atColumn, shallow]

/-- A text that may be written plain is read back, up to the next line. -/
theorem plainFrom_line {column : Nat} (allowed : plainAllowed cs = true) (deep : indent ≤ mark.column)
    (inside : 0 < mark.column) (opens : OpensLine rest) (shallow : (column : Int) < indent) :
    plainFrom false indent [] .none mark (cs ++ '\n' :: (List.replicate column ' ' ++ rest)) =
      some ⟨cs, ⟨mark.after (cs ++ '\n' :: List.replicate column ' '), rest⟩, true⟩ := by
  simp only [plainAllowed, edge, Bool.and_eq_true, Bool.not_eq_true', Bool.or_eq_false_iff,
    List.all_eq_true, List.any_eq_false, Bool.not_eq_true] at allowed
  obtain ⟨⟨⟨⟨⟨-, -⟩, free⟩, printable⟩, inLine⟩, -, closed⟩ := allowed
  have closed : cs.getLast? ≠ some ' ' := by
    intro last
    rw [last] at closed
    cases closed
  rw [← Pending.ofBlanks_nil, plainFrom_text free printable inLine closed nofun nofun deep inside,
    plainFrom_end opens shallow]
  simp

end Colorization.Yaml
