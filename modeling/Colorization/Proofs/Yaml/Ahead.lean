import Colorization.Proofs.Yaml.Plain
import Colorization.Yaml.Scanner
import Mathlib.Logic.Basic

/-! Readers in another place. A text that ends with its last line is read in the same way wherever it
stands in a longer one, as long as nothing is looked at beyond it. -/
namespace Colorization.Yaml

section Ends

variable {c : Char} {cs rest more mark : List Char}

/-- The last line of the text has ended. -/
def EndsLine (cs : List Char) : Prop := ∃ c ∈ cs.getLast?, isBreak c = true

instance (cs : List Char) : Decidable (EndsLine cs) :=
  decidable_of_iff (cs.getLast?.any isBreak = true) (by simp [EndsLine, Option.any_eq_true_iff_get, Option.eq_some_iff_get_eq])

theorem EndsLine.ne_nil (ends : EndsLine cs) : cs ≠ [] := by
  rintro rfl
  obtain ⟨c, member, -⟩ := ends
  cases member

theorem endsLine_append (some : rest ≠ []) : EndsLine (cs ++ rest) ↔ EndsLine rest := by
  rw [EndsLine, EndsLine, List.getLast?_append, List.getLast?_eq_some_getLast some, Option.some_or]

theorem EndsLine.append (ends : EndsLine rest) (cs : List Char) : EndsLine (cs ++ rest) :=
  (endsLine_append ends.ne_nil).mpr ends

theorem EndsLine.of_append (ends : EndsLine (cs ++ rest)) (some : rest ≠ []) : EndsLine rest :=
  (endsLine_append some).mp ends

/-- What does not end a line has something behind it. -/
theorem EndsLine.tail (ends : EndsLine (c :: rest)) (inLine : isBreak c = false) : EndsLine rest := by
  rcases eq_or_ne rest [] with rfl | some
  · simp [EndsLine, inLine] at ends
  · have whole : EndsLine ([c] ++ rest) := ends
    exact whole.of_append some

theorem head?_append_of_ne_nil (some : rest ≠ []) : (rest ++ more).head? = rest.head? := by
  cases rest with
  | nil => exact absurd rfl some
  | cons c rest => rfl

theorem gapNext_append (some : rest ≠ []) : gapNext (rest ++ more) = gapNext rest := by
  rw [gapNext, head?_append_of_ne_nil some, gapNext]

theorem unbroken_of_any (none : cs.any isBreak = false) : ∀ c ∈ cs, isBreak c = false := by
  simpa using none

/-- A line that has ended is not mistaken for the start of a mark that goes on behind it. -/
theorem isPrefixOf_append (unbroken : ∀ c ∈ mark, isBreak c = false) (ends : EndsLine cs) :
    mark.isPrefixOf (cs ++ more) = mark.isPrefixOf cs := by
  induction mark generalizing cs with
  | nil => simp
  | cons c mark ih =>
    rw [List.forall_mem_cons] at unbroken
    obtain ⟨d, cs, rfl⟩ := List.exists_cons_of_ne_nil ends.ne_nil
    by_cases same : c = d
    · subst same
      simpa using ih unbroken.2 (ends.tail unbroken.1)
    · have differ : (c == d) = false := by simpa using same
      simp [List.isPrefixOf, differ]

end Ends

/-- Where a text stands in a longer one: how far behind, in which line, and what comes behind it, which
is the next line in its column. -/
structure Spot where
  index : Nat
  line : Nat
  column : Nat
  rest : List Char
  opens : OpensLine rest

def Spot.more (spot : Spot) : List Char := List.replicate spot.column ' ' ++ spot.rest

namespace Mark

variable {spot : Spot}

def moved (spot : Spot) (mark : Mark) : Mark := ⟨mark.index + spot.index, mark.line + spot.line, mark.column⟩

@[simp] theorem column_moved (mark : Mark) : (mark.moved spot).column = mark.column := rfl

@[simp] theorem line_moved (mark : Mark) : (mark.moved spot).line = mark.line + spot.line := rfl

@[simp] theorem index_moved (mark : Mark) : (mark.moved spot).index = mark.index + spot.index := rfl

@[simp] theorem advance_moved (mark : Mark) (c : Char) : (mark.moved spot).advance c = (mark.advance c).moved spot := by
  unfold advance
  split <;> simp [Mark.moved] <;> omega

@[simp] theorem after_moved (mark : Mark) (cs : List Char) : (mark.moved spot).after cs = (mark.after cs).moved spot := by
  induction cs generalizing mark with
  | nil => rfl
  | cons c cs ih => rw [after_cons, advance_moved, ih, after_cons]

end Mark

namespace Cursor

variable {cursor later last : Cursor} {spot : Spot} {test : Char → Bool} {n : Nat}

/-- Later in the same text. -/
def Ahead (cursor later : Cursor) : Prop :=
  ∃ taken, cursor.rest = taken ++ later.rest ∧ later.mark = cursor.mark.after taken

theorem Ahead.refl (cursor : Cursor) : cursor.Ahead cursor := ⟨[], rfl, rfl⟩

theorem Ahead.trans (first : cursor.Ahead later) (second : later.Ahead last) : cursor.Ahead last := by
  obtain ⟨taken, rest, mark⟩ := first
  obtain ⟨more, rest', mark'⟩ := second
  exact ⟨taken ++ more, by rw [rest, rest', List.append_assoc], by rw [mark', mark, Mark.after_append]⟩

theorem Ahead.length_le (ahead : cursor.Ahead later) : later.rest.length ≤ cursor.rest.length := by
  obtain ⟨taken, rest, -⟩ := ahead
  simp [rest]

theorem Ahead.line_le (ahead : cursor.Ahead later) : cursor.mark.line ≤ later.mark.line := by
  obtain ⟨taken, -, mark⟩ := ahead
  exact mark ▸ Mark.line_le_after _ _

theorem Ahead.endsLine (ahead : cursor.Ahead later) (ends : EndsLine cursor.rest) (some : later.rest ≠ []) :
    EndsLine later.rest := by
  obtain ⟨taken, rest, -⟩ := ahead
  exact EndsLine.of_append (rest ▸ ends) some

/-- Behind the end of the last line is another line. -/
theorem Ahead.line_lt (ahead : cursor.Ahead later) (ends : EndsLine cursor.rest) (done : later.rest = []) :
    cursor.mark.line < later.mark.line := by
  obtain ⟨taken, rest, mark⟩ := ahead
  rw [done, List.append_nil] at rest
  obtain ⟨c, member, broken⟩ := ends
  rw [rest] at member
  exact mark ▸ Mark.line_lt_after _ (List.mem_of_getLast? member) broken

/-- In a line columns only grow. -/
theorem Ahead.column_le (ahead : cursor.Ahead later) (sameLine : later.mark.line ≤ cursor.mark.line) :
    cursor.column ≤ later.column := by
  obtain ⟨taken, -, mark⟩ := ahead
  have inLine : ∀ c ∈ taken, isBreak c = false := by
    intro c member
    rw [← Bool.not_eq_true]
    intro broken
    have further := Mark.line_lt_after cursor.mark member broken
    rw [← mark] at further
    omega
  rw [column, column, mark, Mark.after_of_unbroken inLine]
  exact Nat.le_add_right _ _

theorem ahead_advance (mark : Mark) (c : Char) (rest : List Char) :
    (⟨mark, c :: rest⟩ : Cursor).Ahead ⟨mark.advance c, rest⟩ :=
  ⟨[c], rfl, rfl⟩

theorem Ahead.of_advance {mark : Mark} {c : Char} {rest : List Char}
    (ahead : (⟨mark.advance c, rest⟩ : Cursor).Ahead later) : (⟨mark, c :: rest⟩ : Cursor).Ahead later :=
  (ahead_advance mark c rest).trans ahead

/-- A column is not more than all characters before it. -/
def Sound (cursor : Cursor) : Prop := cursor.mark.column ≤ cursor.mark.index

theorem Ahead.sound (ahead : cursor.Ahead later) (sound : cursor.Sound) : later.Sound := by
  obtain ⟨taken, -, mark⟩ := ahead
  rw [Sound, mark]
  clear mark
  revert sound
  obtain ⟨mark, rest⟩ := cursor
  simp only [Sound]
  induction taken generalizing mark with
  | nil => exact id
  | cons c taken ih =>
    intro sound
    refine ih _ ?_
    unfold Mark.advance
    split
    · simp
    · simp
      omega

/-- What is left ends with a line, or the last line has just ended. -/
def Whole (cursor : Cursor) : Prop := EndsLine cursor.rest ∨ cursor.rest = [] ∧ cursor.column = 0

theorem Ahead.whole (ahead : cursor.Ahead later) (whole : cursor.Whole) : later.Whole := by
  rcases eq_or_ne later.rest [] with done | some
  · refine .inr ⟨done, ?_⟩
    obtain ⟨taken, rest, mark⟩ := ahead
    rw [done, List.append_nil] at rest
    rw [column, mark]
    obtain ⟨c, last, broken⟩ | ⟨nothing, start⟩ := whole
    · obtain ⟨before, same⟩ := List.getLast?_eq_some_iff.mp last
      rw [← rest, same, Mark.after_append, Mark.after_cons, Mark.after_nil, Mark.advance_of_isBreak broken]
    · rw [← rest, nothing]
      exact start
  · refine .inl (ahead.endsLine (whole.resolve_right fun done => some ?_) some)
    have short := ahead.length_le
    rw [done.1] at short
    exact List.length_eq_zero_iff.mp (Nat.le_zero.mp short)

def moved (spot : Spot) (cursor : Cursor) : Cursor := ⟨cursor.mark.moved spot, cursor.rest ++ spot.more⟩

@[simp] theorem mark_moved (cursor : Cursor) : (cursor.moved spot).mark = cursor.mark.moved spot := rfl

@[simp] theorem rest_moved (cursor : Cursor) : (cursor.moved spot).rest = cursor.rest ++ spot.more := rfl

@[simp] theorem column_moved (cursor : Cursor) : (cursor.moved spot).column = cursor.column := rfl

theorem next?_moved (some : cursor.rest ≠ []) : (cursor.moved spot).next? = cursor.next? :=
  head?_append_of_ne_nil some

theorem ahead_skip (cursor : Cursor) (n : Nat) : cursor.Ahead (cursor.skip n) := by
  induction n generalizing cursor with
  | zero => exact .refl cursor
  | succ n ih =>
    obtain ⟨mark, _ | ⟨c, rest⟩⟩ := cursor
    · exact .refl _
    · exact (ih ⟨mark.advance c, rest⟩).of_advance

theorem ahead_skip_succ (cursor : Cursor) (n : Nat) : (cursor.skip 1).Ahead (cursor.skip (n + 1)) := by
  obtain ⟨mark, _ | ⟨c, rest⟩⟩ := cursor
  · exact .refl _
  · exact ahead_skip ⟨mark.advance c, rest⟩ n

theorem skip_moved (some : (cursor.skip n).rest ≠ []) : (cursor.moved spot).skip n = (cursor.skip n).moved spot := by
  induction n generalizing cursor with
  | zero => rfl
  | succ n ih =>
    obtain ⟨mark, _ | ⟨c, rest⟩⟩ := cursor
    · exact absurd rfl some
    · change (⟨(mark.moved spot).advance c, rest ++ spot.more⟩ : Cursor).skip n = _
      rw [Mark.advance_moved]
      exact ih some

theorem ahead_spanFrom (test : Char → Bool) (mark : Mark) (cs : List Char) :
    (⟨mark, cs⟩ : Cursor).Ahead (spanFrom test mark cs).2 := by
  induction cs generalizing mark with
  | nil => exact .refl _
  | cons c cs ih =>
    rw [spanFrom]
    split
    · exact (ih (mark.advance c)).of_advance
    · exact .refl _

theorem ahead_span (cursor : Cursor) (test : Char → Bool) : cursor.Ahead (cursor.span test).2 :=
  ahead_spanFrom test cursor.mark cursor.rest

/-- A run that ends with its line at the latest. -/
theorem spanFrom_moved (spot : Spot) (inLine : ∀ c, isBreak c = true → test c = false) {cs : List Char}
    (ends : EndsLine cs) (mark : Mark) : spanFrom test (mark.moved spot) (cs ++ spot.more) =
        ((spanFrom test mark cs).1, (spanFrom test mark cs).2.moved spot) ∧
      EndsLine (spanFrom test mark cs).2.rest := by
  induction cs generalizing mark with
  | nil => exact absurd rfl ends.ne_nil
  | cons c cs ih =>
    by_cases passes : test c = true
    · have unbroken : isBreak c = false := by
        rw [← Bool.not_eq_true]
        intro broken
        rw [inLine c broken] at passes
        cases passes
      obtain ⟨moved, ended⟩ := ih (ends.tail unbroken) (mark.advance c)
      simp [spanFrom, passes, moved, ended]
    · simp [spanFrom, passes, Cursor.moved, ends]

theorem span_moved (inLine : ∀ c, isBreak c = true → test c = false) (ends : EndsLine cursor.rest) :
    (cursor.moved spot).span test = ((cursor.span test).1, (cursor.span test).2.moved spot) :=
  (spanFrom_moved spot inLine ends cursor.mark).1

theorem endsLine_span (inLine : ∀ c, isBreak c = true → test c = false) (ends : EndsLine cursor.rest) :
    EndsLine (cursor.span test).2.rest :=
  (spanFrom_moved ⟨0, 0, 0, [], nofun⟩ inLine ends cursor.mark).2

theorem skip_one_moved (some : cursor.rest ≠ []) : (cursor.moved spot).skip 1 = (cursor.skip 1).moved spot := by
  obtain ⟨mark, _ | ⟨c, rest⟩⟩ := cursor
  · exact absurd rfl some
  · change (⟨(mark.moved spot).advance c, rest ++ spot.more⟩ : Cursor) = _
    rw [Mark.advance_moved]
    rfl

/-- One character that ends no line. -/
theorem endsLine_skip_one (ends : EndsLine cursor.rest) (inLine : ∀ c ∈ cursor.next?, isBreak c = false) :
    EndsLine (cursor.skip 1).rest := by
  obtain ⟨mark, _ | ⟨c, rest⟩⟩ := cursor
  · exact absurd rfl ends.ne_nil
  · exact ends.tail (inLine c rfl)

/-- Characters that end no line. -/
theorem endsLine_skip (ends : EndsLine cursor.rest) (inLine : ∀ c ∈ cursor.rest.take n, isBreak c = false) :
    EndsLine (cursor.skip n).rest := by
  induction n generalizing cursor with
  | zero => exact ends
  | succ n ih =>
    obtain ⟨mark, _ | ⟨c, rest⟩⟩ := cursor
    · exact ends
    · simp only [List.take_succ_cons, List.forall_mem_cons] at inLine
      exact @ih ⟨mark.advance c, rest⟩ (ends.tail inLine.1) inLine.2

theorem ahead_skipWhile (cursor : Cursor) (test : Char → Bool) : cursor.Ahead (cursor.skipWhile test) :=
  ahead_span cursor test

theorem skipWhile_moved (spot : Spot) (inLine : ∀ c, isBreak c = true → test c = false)
    (ends : EndsLine cursor.rest) : (cursor.moved spot).skipWhile test = (cursor.skipWhile test).moved spot := by
  rw [skipWhile, span_moved inLine ends, skipWhile]

theorem endsLine_skipWhile (inLine : ∀ c, isBreak c = true → test c = false) (ends : EndsLine cursor.rest) :
    EndsLine (cursor.skipWhile test).rest :=
  endsLine_span inLine ends

theorem ahead_skipComment (cursor : Cursor) : cursor.Ahead cursor.skipComment := by
  unfold skipComment
  split
  · exact ahead_skipWhile _ _
  · exact .refl _

theorem skipComment_moved (spot : Spot) (ends : EndsLine cursor.rest) :
    (cursor.moved spot).skipComment = cursor.skipComment.moved spot ∧ EndsLine cursor.skipComment.rest := by
  have inLine (c : Char) (broken : isBreak c = true) : (!isBreak c) = false := by simp [broken]
  rw [skipComment, next?_moved ends.ne_nil, skipComment]
  split
  · exact ⟨skipWhile_moved spot inLine ends, endsLine_skipWhile inLine ends⟩
  · exact ⟨rfl, ends⟩

theorem ahead_skipOrderMark (cursor : Cursor) : cursor.Ahead cursor.skipOrderMark := by
  unfold skipOrderMark
  split
  · exact ahead_skip _ _
  · exact .refl _

theorem skipOrderMark_moved (spot : Spot) (ends : EndsLine cursor.rest) :
    (cursor.moved spot).skipOrderMark = cursor.skipOrderMark.moved spot ∧
      EndsLine cursor.skipOrderMark.rest := by
  rw [skipOrderMark, next?_moved ends.ne_nil, column_moved, skipOrderMark]
  split
  next marked =>
    refine ⟨skip_one_moved ends.ne_nil, endsLine_skip_one ends fun c first => ?_⟩
    rw [first] at marked
    have isMark : c = '\uFEFF' := by simpa [isOrderMark] using (Bool.and_eq_true_iff.mp marked).2
    exact isMark ▸ rfl
  next => exact ⟨rfl, ends⟩

theorem ahead_finishLine? (finished : cursor.finishLine? = some later) : cursor.Ahead later := by
  have gap := (ahead_skipWhile cursor isBlank).trans (ahead_skipComment _)
  simp only [finishLine?] at finished
  split at finished
  · cases finished
    exact gap
  · split at finished
    · cases finished
      exact gap.trans (ahead_skip _ 1)
    · cases finished

theorem finishLine?_moved (ends : EndsLine cursor.rest) :
    (cursor.moved spot).finishLine? = cursor.finishLine?.map (·.moved spot) := by
  have blanks := skipWhile_moved spot (fun _ => not_isBlank_of_isBreak) ends
  obtain ⟨comment, ended⟩ := skipComment_moved spot (endsLine_skipWhile (fun _ => not_isBlank_of_isBreak) ends)
  rw [finishLine?, blanks, comment]
  simp only [next?_moved ended.ne_nil, finishLine?]
  split
  · rfl
  · split
    · rw [skip_one_moved ended.ne_nil]
      rfl
    · rfl

theorem atDocumentMark_moved {mark : List Char} (unbroken : ∀ c ∈ mark, isBreak c = false) (three : mark.length = 3)
    (ends : EndsLine cursor.rest) : (cursor.moved spot).atDocumentMark mark = cursor.atDocumentMark mark := by
  rw [atDocumentMark, rest_moved, isPrefixOf_append unbroken ends, column_moved, atDocumentMark]
  cases isPrefix : mark.isPrefixOf cursor.rest with
  | false => simp
  | true =>
    obtain ⟨rest, same⟩ := List.isPrefixOf_iff_prefix.mp isPrefix
    have some : rest ≠ [] := by
      rintro rfl
      rw [List.append_nil] at same
      obtain ⟨c, last, broken⟩ := same ▸ ends
      rw [unbroken c (List.mem_of_getLast? last)] at broken
      cases broken
    rw [← same, List.append_assoc, ← three, List.drop_left, List.drop_left, gapNext_append some]

theorem atAnyDocumentMark_moved (ends : EndsLine cursor.rest) :
    (cursor.moved spot).atAnyDocumentMark = cursor.atAnyDocumentMark := by
  rw [atAnyDocumentMark, atDocumentMark_moved (unbroken_of_any rfl) rfl ends, atDocumentMark_moved (unbroken_of_any rfl) rfl ends,
    atAnyDocumentMark]

end Cursor

end Colorization.Yaml
