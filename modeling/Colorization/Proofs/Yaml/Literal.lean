import Colorization.Proofs.Yaml.SingleQuoted
import Mathlib.Data.List.Basic

/-! A literal text is read back line by line. What its header says about the last breaks agrees with
how the text ends, and the line break that ends the entry is not counted. -/
namespace Colorization.Yaml

/-- Characters of one line with all the line breaks behind them. -/
structure Line where
  chars : List Char
  breaks : List Char
  nonempty : chars ≠ []
  unbroken : ∀ c ∈ chars, isBreak c = false
  ended : breaks ≠ []
  broken : ∀ c ∈ breaks, isBreak c = true

namespace Line

def text (line : Line) : List Char := line.chars ++ line.breaks

def written (indent : Nat) (line : Line) : List Char := List.replicate indent ' ' ++ line.text

variable {cs : List Char}

/-- A text that ends with a break is breaks and then lines. The induction is on the text: a character
joins the line behind it, or begins one if there are breaks behind it. -/
theorem exists_lines (ends : endsBroken true cs = true) : ∃ (leading : List Char) (lines : List Line),
    (∀ c ∈ leading, isBreak c = true) ∧ cs = leading ++ lines.flatMap text := by
  induction cs with
  | nil => exact ⟨[], [], by simp, rfl⟩
  | cons c cs ih =>
    rw [endsBroken] at ends
    by_cases isBroken : isBreak c = true
    · obtain ⟨leading, lines, broken, rfl⟩ := ih (isBroken ▸ ends)
      exact ⟨c :: leading, lines, List.forall_mem_cons.mpr ⟨isBroken, broken⟩, rfl⟩
    · rw [Bool.not_eq_true] at isBroken
      have notEmpty : cs ≠ [] := by
        rintro rfl
        rw [isBroken] at ends
        cases ends
      have ends : endsBroken true cs = true := by
        rw [endsBroken_eq] at ends ⊢
        rwa [List.getLast?_eq_some_getLast notEmpty] at ends ⊢
      obtain ⟨_ | ⟨first, leading⟩, lines, broken, rfl⟩ := ih ends
      · obtain _ | ⟨line, lines⟩ := lines
        · exact absurd rfl notEmpty
        · refine ⟨[], ⟨c :: line.chars, line.breaks, by simp, ?_, line.ended, line.broken⟩ :: lines,
            by simp, by simp [text]⟩
          exact List.forall_mem_cons.mpr ⟨isBroken, line.unbroken⟩
      · exact ⟨[], ⟨[c], first :: leading, by simp, by simpa using isBroken, by simp, broken⟩ :: lines,
          by simp, by simp [text]⟩

/-- What has been read of a block text: the text, the break behind its last line, and further
breaks. -/
abbrev Gathered := List Char × List Char × List Char

def gather (gathered : Gathered) (line : Line) : Gathered :=
  (gathered.1 ++ gathered.2.1 ++ gathered.2.2 ++ line.chars, line.breaks.take 1, line.breaks.drop 1)

theorem concat_gather (gathered : Gathered) (line : Line) :
    (gather gathered line).1 ++ ((gather gathered line).2.1 ++ (gather gathered line).2.2) =
      gathered.1 ++ (gathered.2.1 ++ gathered.2.2) ++ line.text := by
  simp only [gather, text, List.take_append_drop, List.append_assoc]

theorem concat_foldl_gather (gathered : Gathered) (lines : List Line) :
    (lines.foldl gather gathered).1 ++ ((lines.foldl gather gathered).2.1 ++
        (lines.foldl gather gathered).2.2) =
      gathered.1 ++ (gathered.2.1 ++ gathered.2.2) ++ lines.flatMap text := by
  induction lines generalizing gathered with
  | nil => simp
  | cons line lines ih => rw [List.foldl_cons, ih, concat_gather, List.flatMap_cons, List.append_assoc]

/-- Behind a line there are its breaks. -/
theorem foldl_gather_breaks (gathered : Gathered) {lines : List Line} (some : lines ≠ []) :
    ∃ line : Line, (lines.foldl gather gathered).2 = (line.breaks.take 1, line.breaks.drop 1) := by
  obtain ⟨before, line, rfl⟩ := List.eq_nil_or_concat' lines |>.resolve_left some
  exact ⟨line, by simp [gather]⟩

theorem indented_of_unbroken {indent : Nat} (unbroken : ∀ c ∈ cs, isBreak c = false) (rest : List Char) :
    indented indent (fun c => [c]) false (cs ++ rest) = cs ++ indented indent (fun c => [c]) false rest := by
  induction cs with
  | nil => rfl
  | cons c cs ih =>
    rw [List.forall_mem_cons] at unbroken
    simp [indented, unbroken.1, ih unbroken.2]

theorem indented_of_broken {indent : Nat} {fresh : Bool} (broken : ∀ c ∈ cs, isBreak c = true)
    (begins : cs = [] → fresh = true) (rest : List Char) :
    indented indent (fun c => [c]) fresh (cs ++ rest) = cs ++ indented indent (fun c => [c]) true rest := by
  induction cs generalizing fresh with
  | nil => simp [begins rfl]
  | cons c cs ih =>
    rw [List.forall_mem_cons] at broken
    simp [indented, broken.1, ih broken.2]

theorem indented_text {indent : Nat} (line : Line) (rest : List Char) :
    indented indent (fun c => [c]) true (line.text ++ rest) =
      line.written indent ++ indented indent (fun c => [c]) true rest := by
  obtain ⟨_ | ⟨c, cs⟩, breaks, nonempty, unbroken, ended, broken⟩ := line
  · exact absurd rfl nonempty
  · rw [List.forall_mem_cons] at unbroken
    simp [text, written, indented, unbroken.1, indented_of_unbroken unbroken.2,
      indented_of_broken broken fun empty => absurd empty ended]

theorem indented_lines {indent : Nat} {leading : List Char} (broken : ∀ c ∈ leading, isBreak c = true)
    (lines : List Line) :
    indented indent (fun c => [c]) true (leading ++ lines.flatMap text) =
      leading ++ lines.flatMap (written indent) := by
  rw [indented_of_broken broken fun _ => rfl]
  congr 1
  induction lines with
  | nil => rfl
  | cons line lines ih => rw [List.flatMap_cons, indented_text, ih, List.flatMap_cons]

end Line

section Margins

variable {indent given column deepest : Nat} {breaks leading rest tail : List Char} {mark : Mark}
  {lines : List Line}

theorem marginFrom_breaks (broken : ∀ c ∈ leading, isBreak c = true) (deepest : Nat) :
    ∃ deepest', ∀ rest, marginFrom given breaks deepest mark (leading ++ rest) =
      marginFrom given (breaks ++ leading) deepest' (mark.after leading) rest := by
  induction leading generalizing breaks mark deepest with
  | nil => exact ⟨deepest, by simp⟩
  | cons c cs ih =>
    rw [List.forall_mem_cons] at broken
    have notSpace : c ≠ ' ' := by
      rintro rfl
      cases broken.1
    have notTab : c ≠ '\t' := by
      rintro rfl
      cases broken.1
    obtain ⟨deepest', later⟩ : ∃ deepest', ∀ rest,
        marginFrom given (breaks ++ [c]) (max deepest mark.column) (mark.advance c) (cs ++ rest) =
          marginFrom given (breaks ++ [c] ++ cs) deepest' ((mark.advance c).after cs) rest :=
      ih broken.2 _
    exact ⟨deepest', fun rest => by simp [marginFrom, notSpace, notTab, broken.1, later]⟩

theorem marginFrom_spaces (n : Nat) (fits : given = 0 ∨ mark.column + n ≤ given) (rest : List Char) :
    marginFrom given breaks deepest mark (List.replicate n ' ' ++ rest) =
      marginFrom given breaks deepest (mark.after (List.replicate n ' ')) rest := by
  induction n generalizing mark with
  | zero => rfl
  | succ n ih =>
    have inside : given = 0 ∨ mark.column < given := by omega
    have column : (mark.advance ' ').column = mark.column + 1 := rfl
    rw [List.replicate_succ, List.cons_append, marginFrom, if_pos ⟨inside, rfl⟩, ih (by omega)]
    rfl

theorem marginFrom_end (stops : ∀ c ∈ rest.head?, isBreak c = false ∧
      (given = 0 ∨ mark.column < given → isBlank c = false)) :
    marginFrom given breaks deepest mark rest =
      some ⟨breaks, max deepest mark.column, ⟨mark, rest⟩⟩ := by
  cases rest with
  | nil => rfl
  | cons c rest =>
    obtain ⟨inLine, notBlank⟩ := stops c rfl
    simp only [isBlank, Bool.or_eq_false_iff, decide_eq_false_iff_not] at notBlank
    rw [marginFrom, if_neg fun blank => (notBlank blank.1).1 blank.2,
      if_neg fun blank => (notBlank blank.1).2 blank.2, if_neg (by simp [inLine])]

/-- Where a text goes on that has these lines left, at the start of the next of them. Behind the
last one stand spaces and the rest. -/
def Line.cursor (indent column : Nat) (mark : Mark) (rest : List Char) : List Line → Cursor
  | [] => ⟨mark.after (List.replicate column ' '), rest⟩
  | line :: lines => ⟨mark.after (List.replicate indent ' '),
      line.text ++ (lines.flatMap (written indent) ++ (List.replicate column ' ' ++ rest))⟩

theorem Line.head?_text (line : Line) (rest : List Char) :
    ∀ c ∈ (line.text ++ rest).head?, isBreak c = false := by
  obtain ⟨_ | ⟨c, cs⟩, breaks, nonempty, unbroken, ended, broken⟩ := line
  · exact absurd rfl nonempty
  · simpa [text] using unbroken c List.mem_cons_self

theorem column_after_breaks (broken : ∀ c ∈ leading, isBreak c = true) (atStart : mark.column = 0) :
    (mark.after leading).column = 0 := by
  induction leading generalizing mark with
  | nil => exact atStart
  | cons c cs ih =>
    rw [List.forall_mem_cons] at broken
    exact ih broken.2 (by rw [Mark.advance_of_isBreak broken.1])

/-- The breaks in front of the lines, once it is known how far they are indented. -/
theorem marginFrom_lines (broken : ∀ c ∈ leading, isBreak c = true) (atStart : mark.column = 0)
    (below : column < indent) (opens : OpensLine rest) (lines : List Line) (deepest : Nat) :
    ∃ deepest', marginFrom indent [] deepest mark
        (leading ++ (lines.flatMap (Line.written indent) ++ (List.replicate column ' ' ++ rest))) =
      some ⟨leading, deepest', Line.cursor indent column (mark.after leading) rest lines⟩ := by
  obtain ⟨deepest', later⟩ : ∃ deepest', ∀ rest, marginFrom indent [] deepest mark (leading ++ rest) =
      marginFrom indent leading deepest' (mark.after leading) rest := marginFrom_breaks broken deepest
  have atStart := column_after_breaks broken atStart
  rw [later]
  cases lines with
  | nil =>
    rw [List.flatMap_nil, List.nil_append, marginFrom_spaces column (by omega), marginFrom_end]
    · exact ⟨_, rfl⟩
    · exact fun c first => ⟨(opens c first).2.1, fun _ => (opens c first).1⟩
  | cons line lines =>
    rw [List.flatMap_cons, Line.written, List.append_assoc, List.append_assoc,
      marginFrom_spaces indent (by omega), marginFrom_end]
    · exact ⟨_, rfl⟩
    · refine fun c first => ⟨line.head?_text _ c first, fun inside => absurd inside ?_⟩
      rw [Mark.after_spaces]
      show ¬ (indent = 0 ∨ (mark.after leading).column + indent < indent)
      omega

/-- How far the lines are indented is seen from the first of them if it begins with no space. -/
theorem marginFrom_first {line : Line} (atStart : mark.column = 0)
    (notBlank : ∀ c ∈ line.chars.head?, isBlank c = false) (lines : List Line) :
    marginFrom 0 [] 0 mark
        ((line :: lines).flatMap (Line.written indent) ++ (List.replicate column ' ' ++ rest)) =
      some ⟨[], indent, Line.cursor indent column mark rest (line :: lines)⟩ := by
  rw [List.flatMap_cons, Line.written, List.append_assoc, List.append_assoc,
    marginFrom_spaces indent (.inl rfl), marginFrom_end]
  · simp [Line.cursor, atStart, Mark.after_spaces]
  · refine fun c first => ⟨line.head?_text _ c first, fun _ => notBlank c ?_⟩
    obtain ⟨_ | ⟨d, cs⟩, breaks, nonempty, unbroken, ended, broken⟩ := line
    · exact absurd rfl nonempty
    · simpa [Line.text] using first

/-- A line and the first break behind it. -/
theorem blockLines_line {first : Char} {more : List Char} {line : Line} {margin : Margin}
    (gathered : Line.Gathered) (blankBefore : Bool) (atIndent : mark.column = indent)
    (breaks : line.breaks = first :: more)
    (next : marginFrom indent [] 0 ((mark.after line.chars).advance first) (more ++ rest) = some margin)
    (same : margin.breaks = more) (fuel : Nat) : ∃ blankHere,
    blockLines true indent gathered.1 gathered.2.1 gathered.2.2 blankBefore ⟨mark, line.text ++ rest⟩
        (fuel + 1) =
      blockLines true indent (Line.gather gathered line).1 (Line.gather gathered line).2.1
        (Line.gather gathered line).2.2 blankHere margin.cursor fuel := by
  have broken : isBreak first = true := line.broken first (breaks ▸ List.mem_cons_self)
  have someText : line.text ++ rest ≠ [] := by simp [Line.text, line.nonempty]
  have span : (⟨mark, line.text ++ rest⟩ : Cursor).span (!isBreak ·) =
      (line.chars, ⟨mark.after line.chars, first :: (more ++ rest)⟩) := by
    rw [Line.text, breaks, List.append_assoc]
    exact Cursor.spanFrom_append (fun c member => by rw [line.unbroken c member]; rfl)
      (fun c first => by cases first; rw [broken]; rfl)
  refine ⟨(line.text ++ rest).head?.any isBlank, ?_⟩
  rw [blockLines, if_pos ⟨atIndent, someText⟩]
  simp only [span, Cursor.skip, next, same]
  simp [Line.gather, breaks, Cursor.next?]

/-- One line of the text after the other. The induction is on the lines that are left. -/
theorem blockLines_lines (atStart : mark.column = 0) (below : column < indent) (opens : OpensLine rest)
    (gathered : Line.Gathered) (blankBefore : Bool) (lines : List Line) {fuel : Nat}
    (enough : lines.length < fuel) :
    blockLines true indent gathered.1 gathered.2.1 gathered.2.2 blankBefore
        (Line.cursor indent column mark rest lines) fuel =
      some ((lines.foldl Line.gather gathered).1, (lines.foldl Line.gather gathered).2.1,
        (lines.foldl Line.gather gathered).2.2,
        ⟨mark.after (lines.flatMap (Line.written indent) ++ List.replicate column ' '), rest⟩) := by
  induction lines generalizing gathered blankBefore mark fuel with
  | nil =>
    obtain _ | fuel := fuel
    · exact absurd enough (Nat.not_lt_zero _)
    have shallow : (mark.after (List.replicate column ' ')).column ≠ indent := by
      rw [Mark.after_spaces]
      show mark.column + column ≠ indent
      omega
    rw [blockLines, if_neg fun here => shallow here.1]
    rfl
  | cons line lines ih =>
    obtain _ | fuel := fuel
    · exact absurd enough (Nat.not_lt_zero _)
    rw [List.length_cons, Nat.add_lt_add_iff_right] at enough
    obtain ⟨first, more, breaks⟩ := List.exists_cons_of_ne_nil line.ended
    have broken : isBreak first = true ∧ ∀ c ∈ more, isBreak c = true :=
      List.forall_mem_cons.mp (breaks ▸ line.broken)
    have atIndent : (mark.after (List.replicate indent ' ')).column = indent := by
      rw [Mark.after_spaces]
      show mark.column + indent = indent
      omega
    have nextStart (mark : Mark) : (mark.advance first).column = 0 := by
      rw [Mark.advance_of_isBreak broken.1]
    obtain ⟨deepest, next⟩ := marginFrom_lines broken.2 (nextStart _) below opens lines 0
    obtain ⟨blankHere, step⟩ := blockLines_line gathered blankBefore atIndent breaks next rfl fuel
    rw [Line.cursor, step, ih (column_after_breaks broken.2 (nextStart _)) _ _ enough]
    simp [Line.written, Line.text, breaks]

theorem Line.length_pos (line : Line) : 0 < line.text.length := by
  rw [text, List.length_append]
  exact Nat.add_pos_left (List.length_pos_iff.mpr line.nonempty) _

theorem length_le_cursor (indent column : Nat) (mark : Mark) (rest : List Char) (lines : List Line) :
    lines.length ≤ (Line.cursor indent column mark rest lines).rest.length := by
  cases lines with
  | nil => exact Nat.zero_le _
  | cons line lines =>
    have here := line.length_pos
    have later : lines.length ≤ (lines.flatMap (Line.written indent)).length := by
      induction lines with
      | nil => exact Nat.le_refl _
      | cons line lines ih =>
        have here := line.length_pos
        simp only [List.length_cons, List.flatMap_cons, List.length_append, Line.written]
        omega
    simp only [Line.cursor, List.length_cons, List.length_append]
    omega

end Margins

section Chomping

/-- The sign for what becomes of the last breaks. -/
def Chomping.sign : Chomping → List Char
  | .strip => ['-']
  | .clip => []
  | .keep => ['+']

def Chomping.tail (chomping : Chomping) (lineBreak breaks : List Char) : List Char :=
  match chomping with
  | .strip => []
  | .clip => lineBreak
  | .keep => lineBreak ++ breaks

/-- What keeps the last breaks of a text, and no more. -/
def chompingOf (cs : List Char) : Chomping :=
  match cs.reverse with
  | [] => .strip
  | last :: before =>
    if !isBreak last then .strip
    else if before.isEmpty || before.head?.any isBreak then .keep
    else .clip

/-- The text begins with what would be taken for indentation. -/
def isHinted (cs : List Char) : Bool := cs.head?.any fun c => isSpace c || isBreak c

theorem literalHeader_eq (cs : List Char) :
    literalHeader cs = (if isHinted cs then ['2'] else []) ++ (chompingOf cs).sign := by
  unfold literalHeader chompingOf
  congr 1
  split <;> grind [Chomping.sign]

theorem blockHeader_sign (hinted : Bool) (chomping : Chomping) (rest : List Char) :
    blockHeader ((if hinted then ['2'] else []) ++ chomping.sign ++ '\n' :: rest) =
      some (chomping, if hinted then 2 else 0,
        ((if hinted then ['2'] else []) ++ chomping.sign).length) := by
  cases rest <;> cases hinted <;> cases chomping <;> rfl

/-- What ends the line behind a text. -/
def lineEnd (cs : List Char) : List Char := if cs.getLast?.any isBreak then [] else ['\n']

variable {text breaks cs : List Char} {c last : Char}

theorem concat_inj (same : text ++ [c] = cs ++ [last]) : text = cs ∧ c = last := by
  obtain ⟨texts, lasts⟩ := List.append_inj' same rfl
  exact ⟨texts, List.cons.inj lasts |>.1⟩

/-- Breaks behind a text that, but for its last character, does not end with one. -/
theorem eq_of_breaks (whole : text ++ breaks = cs ++ [c] ++ [last])
    (broken : ∀ c ∈ breaks, isBreak c = true) (inLine : isBreak c = false) (some : breaks ≠ []) :
    text = cs ++ [c] ∧ breaks = [last] := by
  obtain ⟨before, final, rfl⟩ := List.eq_nil_or_concat' breaks |>.resolve_left some
  rw [← List.append_assoc] at whole
  obtain ⟨earlier, rfl⟩ := concat_inj whole
  obtain rfl | ⟨_, next, rfl⟩ := List.eq_nil_or_concat' before
  · exact ⟨by rwa [List.append_nil] at earlier, rfl⟩
  · rw [← List.append_assoc] at earlier
    obtain ⟨-, rfl⟩ := concat_inj earlier
    rw [broken next (by simp)] at inLine
    cases inLine

/-- The breaks at the end of a text are those that its chomping leaves of the breaks that are
written. -/
theorem chomped {gathered : Line.Gathered} (nonempty : cs ≠ [])
    (whole : gathered.1 ++ (gathered.2.1 ++ gathered.2.2) = cs ++ lineEnd cs)
    (broken : ∀ c ∈ gathered.2.1 ++ gathered.2.2, isBreak c = true)
    (first : gathered.1 = [] ∨
      gathered.2.1 ++ gathered.2.2 ≠ [] ∧ gathered.2.1 = (gathered.2.1 ++ gathered.2.2).take 1) :
    gathered.1 ++ (chompingOf cs).tail gathered.2.1 gathered.2.2 = cs := by
  obtain ⟨text, lineBreak, breaks⟩ := gathered
  simp only at whole broken first ⊢
  have some : lineBreak ++ breaks ≠ [] := by
    rcases first with rfl | ⟨some, -⟩
    · rw [List.nil_append] at whole
      simp [whole, nonempty]
    · exact some
  obtain ⟨before, last, rfl⟩ := List.eq_nil_or_concat' cs |>.resolve_left nonempty
  by_cases ended : isBreak last = true
  · have noEnd : lineEnd (before ++ [last]) = [] := by simp [lineEnd, ended]
    rw [noEnd, List.append_nil] at whole
    obtain rfl | ⟨before, c, rfl⟩ := List.eq_nil_or_concat' before
    · have keep : chompingOf [last] = .keep := by simp [chompingOf, ended]
      rw [List.nil_append, keep]
      exact whole
    · by_cases again : isBreak c = true
      · have keep : chompingOf (before ++ [c] ++ [last]) = .keep := by simp [chompingOf, ended, again]
        rw [keep]
        exact whole
      · rw [Bool.not_eq_true] at again
        have clip : chompingOf (before ++ [c] ++ [last]) = .clip := by simp [chompingOf, ended, again]
        obtain ⟨rfl, one⟩ := eq_of_breaks whole broken again some
        rcases first with empty | ⟨-, first⟩
        · simp at empty
        · rw [clip, Chomping.tail, first, one]
          rfl
  · rw [Bool.not_eq_true] at ended
    have strip : chompingOf (before ++ [last]) = .strip := by simp [chompingOf, ended]
    have feed : lineEnd (before ++ [last]) = ['\n'] := by simp [lineEnd, ended]
    rw [feed] at whole
    obtain ⟨rfl, -⟩ := eq_of_breaks whole broken ended some
    rw [strip, Chomping.tail, List.append_nil]

end Chomping

section Texts

variable {cs rest : List Char} {mark : Mark} {outer column : Nat}

theorem indented_append_break {indent : Nat} {fresh : Bool} {c : Char} (broken : isBreak c = true)
    (cs : List Char) : indented indent (fun c => [c]) fresh (cs ++ [c]) =
      indented indent (fun c => [c]) fresh cs ++ [c] := by
  induction cs generalizing fresh with
  | nil => simp [indented, broken]
  | cons d cs ih =>
    rw [List.cons_append, indented, indented]
    split <;> simp [ih]

theorem indented_lineEnd (indent : Nat) (cs : List Char) :
    indented indent (fun c => [c]) true (cs ++ lineEnd cs) =
      indented indent (fun c => [c]) true cs ++ lineEnd cs := by
  unfold lineEnd
  split
  · simp
  · exact indented_append_break rfl cs

theorem endsBroken_lineEnd (cs : List Char) : endsBroken true (cs ++ lineEnd cs) = true := by
  rw [endsBroken_eq, lineEnd]
  split
  next ended =>
    obtain ⟨last, found, broken⟩ := Option.any_eq_true _ _ |>.mp ended
    simp [found, broken]
  next => simp; rfl

/-- What the header of a text adds to the indentation of the block; nothing if it says none. -/
def increment (cs : List Char) : Nat := if isHinted cs then indentStep else 0

theorem not_isHinted_cons {c : Char} {cs : List Char} (free : isHinted (c :: cs) = false) :
    c ≠ ' ' ∧ isBreak c = false := by
  simpa [isHinted, isSpace] using free

/-- All breaks that are written behind the text have been gathered, whatever becomes of them. -/
theorem chomped_gather {leading : List Char} {lines : List Line} (nonempty : cs ≠ [])
    (whole : cs ++ lineEnd cs = leading ++ lines.flatMap Line.text)
    (broken : ∀ c ∈ leading, isBreak c = true) :
    (lines.foldl Line.gather ([], [], leading)).1 ++
      (chompingOf cs).tail (lines.foldl Line.gather ([], [], leading)).2.1
        (lines.foldl Line.gather ([], [], leading)).2.2 = cs := by
  have concat := Line.concat_foldl_gather ([], [], leading) lines
  rw [List.nil_append, List.nil_append, ← whole] at concat
  rcases eq_or_ne lines [] with rfl | some
  · exact chomped nonempty concat broken (.inl rfl)
  · obtain ⟨line, gathered⟩ := Line.foldl_gather_breaks ([], [], leading) some
    have breaks : line.breaks.take 1 ++ line.breaks.drop 1 = line.breaks := List.take_append_drop _ _
    refine chomped nonempty concat ?_ (.inr ?_) <;> rw [gathered, breaks]
    · exact line.broken
    · exact ⟨line.ended, rfl⟩

/-- The margin in front of the first line is given by the header or seen. -/
theorem marginFrom_header {leading : List Char} {lines : List Line}
    (whole : cs ++ lineEnd cs = leading ++ lines.flatMap Line.text)
    (broken : ∀ c ∈ leading, isBreak c = true) (atStart : mark.column = 0) (nonempty : cs ≠ [])
    (printable : ∀ c ∈ cs, isPrintable c = true) (below : column < outer + indentStep)
    (opens : OpensLine rest) {given : Nat}
    (header : given = if increment cs = 0 then 0 else outer + increment cs) : ∃ deepest,
      marginFrom given [] 0 mark (leading ++ (lines.flatMap (Line.written (outer + indentStep)) ++
          (List.replicate column ' ' ++ rest))) =
        some ⟨leading, deepest,
          Line.cursor (outer + indentStep) column (mark.after leading) rest lines⟩ ∧
      (if given = 0 then max deepest (outer + 1) else given) = outer + indentStep := by
  cases hinted : isHinted cs with
  | true =>
    obtain rfl : given = outer + indentStep := by simpa [increment, hinted, indentStep] using header
    obtain ⟨deepest, found⟩ := marginFrom_lines broken atStart below opens lines 0
    exact ⟨deepest, found, if_neg (by simp [indentStep])⟩
  | false =>
    obtain rfl : given = 0 := by simpa [increment, hinted] using header
    obtain ⟨c, cs, rfl⟩ := List.exists_cons_of_ne_nil nonempty
    obtain ⟨notSpace, inLine⟩ := not_isHinted_cons hinted
    obtain _ | ⟨first, leading⟩ := leading
    · obtain _ | ⟨line, lines⟩ := lines
      · cases whole
      · have notBlank : ∀ d ∈ line.chars.head?, isBlank d = false := by
          obtain ⟨_ | ⟨d, more⟩, breaks, some, unbroken, ended, broken⟩ := line
          · exact absurd rfl some
          · obtain ⟨rfl, -⟩ := List.cons.inj whole
            simpa using not_isBlank_of_ne_space (printable c List.mem_cons_self) notSpace
        refine ⟨_, marginFrom_first atStart notBlank lines, ?_⟩
        simp [indentStep]
    · obtain ⟨rfl, -⟩ := List.cons.inj whole
      rw [broken c List.mem_cons_self] at inLine
      cases inLine

theorem finishLine?_feed (mark : Mark) (rest : List Char) :
    (⟨mark, '\n' :: rest⟩ : Cursor).finishLine? = some ⟨mark.advance '\n', rest⟩ := rfl

theorem literal_lines {leading : List Char} {lines : List Line}
    (whole : cs ++ lineEnd cs = leading ++ lines.flatMap Line.text)
    (broken : ∀ c ∈ leading, isBreak c = true) (indent : Nat) (more : List Char) :
    literal indent cs ++ (lineEnd cs ++ more) = '|' :: (literalHeader cs ++
      '\n' :: (leading ++ (lines.flatMap (Line.written indent) ++ more))) := by
  have body := indented_lineEnd indent cs
  rw [whole, Line.indented_lines broken] at body
  rw [literal, ← List.append_assoc leading, body]
  simp

/-- Reading goes through the header, to the margin, and then through the lines. -/
theorem block?_of_lines {body : List Char} {given indent : Nat} {margin : Margin} {gathered : Line.Gathered}
    {cursor : Cursor} (header : given = if increment cs = 0 then 0 else outer + increment cs)
    (found : marginFrom given [] 0 (((mark.advance '|').after (literalHeader cs)).advance '\n') body =
      some margin)
    (same : (if given = 0 then max margin.deepest (outer + 1) else given) = indent)
    (read : blockLines true indent [] [] margin.breaks false margin.cursor
      (margin.cursor.rest.length + 1) = some (gathered.1, gathered.2.1, gathered.2.2, cursor)) :
    block? true outer ⟨mark, '|' :: (literalHeader cs ++ '\n' :: body)⟩ =
      some ⟨gathered.1 ++ (chompingOf cs).tail gathered.2.1 gathered.2.2, cursor, true⟩ := by
  have sign : blockHeader (literalHeader cs ++ '\n' :: body) =
      some (chompingOf cs, increment cs, (literalHeader cs).length) := by
    rw [literalHeader_eq]
    exact blockHeader_sign _ _ _
  have signless : (max (outer : Int) 0).toNat = outer := by omega
  have least : (max ((outer : Int) + 1) 1).toNat = outer + 1 := by omega
  simp only [block?, Cursor.skip, sign, Option.bind_eq_bind, Option.bind_some, Cursor.skip_append,
    finishLine?_feed, signless, ← header, found, least, same, read]
  rfl

/-- A text written as a literal block is read back, with the start of the line behind it. -/
theorem block?_literal (allowed : literalAllowed cs = true) (nonempty : cs ≠ [])
    (below : column < outer + indentStep) (opens : OpensLine rest) :
    block? true outer ⟨mark, literal (outer + indentStep) cs ++
        (lineEnd cs ++ (List.replicate column ' ' ++ rest))⟩ =
      some ⟨cs, ⟨mark.after (literal (outer + indentStep) cs ++
        (lineEnd cs ++ List.replicate column ' ')), rest⟩, true⟩ := by
  simp only [literalAllowed, Bool.and_eq_true, List.all_eq_true] at allowed
  obtain ⟨leading, lines, broken, whole⟩ := Line.exists_lines (endsBroken_lineEnd cs)
  have atStart : (((mark.advance '|').after (literalHeader cs)).advance '\n').column = 0 := rfl
  obtain ⟨deepest, margin, sameIndent⟩ :=
    marginFrom_header whole broken atStart nonempty allowed.1.1 below opens rfl
  have enough := Nat.lt_succ_of_le (length_le_cursor (outer + indentStep) column
    ((((mark.advance '|').after (literalHeader cs)).advance '\n').after leading) rest lines)
  have read := blockLines_lines (column_after_breaks broken atStart) below opens ([], [], leading) false
    lines enough
  rw [literal_lines whole broken, literal_lines whole broken, block?_of_lines rfl margin sameIndent read,
    chomped_gather nonempty whole broken]
  simp

end Texts

end Colorization.Yaml
