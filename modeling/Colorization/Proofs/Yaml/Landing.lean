import Colorization.Proofs.Yaml.InLine
import Colorization.Proofs.Yaml.Literal

/-! Texts in another place. A quoted text ends before its last line does; a plain text and a block text may
reach the end of their text, and are then read up to the start of the next line. -/
namespace Colorization.Yaml

variable {spot : Spot} {before : List Char} {pending : Pending} {mark : Mark} {cs : List Char}
  {scanned : Scanned}

def Scanned.moved (spot : Spot) (scanned : Scanned) : Scanned :=
  { scanned with cursor := scanned.cursor.moved spot }

/-- Where a reader gets to that has come to the end of its text. -/
def Cursor.landed (spot : Spot) (later : Cursor) : Cursor :=
  if later.rest = [] then ⟨(later.mark.moved spot).after (List.replicate spot.column ' '), spot.rest⟩
  else later.moved spot

theorem Cursor.landed_of_end {later : Cursor} (done : later.rest = []) :
    later.landed spot = ⟨(later.mark.moved spot).after (List.replicate spot.column ' '), spot.rest⟩ :=
  if_pos done

theorem Cursor.landed_of_ne_nil {later : Cursor} (some : later.rest ≠ []) : later.landed spot = later.moved spot :=
  if_neg some

def Scanned.landed (spot : Spot) (scanned : Scanned) : Scanned :=
  { scanned with cursor := scanned.cursor.landed spot }

theorem Scanned.landed_of_ne_nil (some : scanned.cursor.rest ≠ []) : scanned.landed spot = scanned.moved spot := by
  rw [Scanned.landed, Cursor.landed_of_ne_nil some, Scanned.moved]

theorem EndsLine.skip {c : Char} {rest : List Char} (ends : EndsLine (c :: rest)) (some : rest ≠ []) :
    EndsLine rest :=
  (show EndsLine ([c] ++ rest) from ends).of_append some

/-- A decision that is made in the same way in both places. -/
theorem branch {α : Type} {p : Prop} [Decidable p] {yes no yes' no' : Option α} {result result' : α}
    (read : (if p then yes else no) = some result) (onYes : p → yes = some result → yes' = some result')
    (onNo : ¬p → no = some result → no' = some result') : (if p then yes' else no') = some result' := by
  by_cases decided : p
  · rw [if_pos decided] at read ⊢
    exact onYes decided read
  · rw [if_neg decided] at read ⊢
    exact onNo decided read

section Quoted

theorem ahead_singleQuotedFrom (read : singleQuotedFrom before pending mark cs = some scanned) :
    (⟨mark, cs⟩ : Cursor).Ahead scanned.cursor := by
  fun_induction singleQuotedFrom before pending mark cs
  all_goals first
    | cases read; done
    | (rename_i ih; exact (ih read).of_advance)
    | skip
  · rename_i ih
    exact ((ih read).of_advance).of_advance
  · cases read
    exact Cursor.ahead_advance _ _ _

theorem atAnyDocumentMark_cons {c : Char} {rest : List Char} (ends : EndsLine (c :: rest)) :
    Cursor.atAnyDocumentMark ⟨mark.moved spot, c :: (rest ++ spot.more)⟩ =
      Cursor.atAnyDocumentMark ⟨mark, c :: rest⟩ :=
  @Cursor.atAnyDocumentMark_moved ⟨mark, c :: rest⟩ spot ends

/-- The induction follows the reader; where a line ends in the text there is more of it, since otherwise
the reader fails. -/
theorem singleQuotedFrom_moved (read : singleQuotedFrom before pending mark cs = some scanned)
    (ends : EndsLine cs) : EndsLine scanned.cursor.rest ∧
      singleQuotedFrom before pending (mark.moved spot) (cs ++ spot.more) = some (scanned.moved spot) := by
  fun_induction singleQuotedFrom before pending mark cs with
  | case1 => cases read
  | case2 => cases read
  | case3 before pending mark c rest unmarked blank ih =>
    obtain ⟨ended, moved⟩ := ih read (ends.tail (not_isBreak_of_isBlank blank))
    refine ⟨ended, ?_⟩
    rw [List.cons_append, singleQuotedFrom.eq_def]
    simpa only [atAnyDocumentMark_cons ends, if_neg unmarked, if_pos blank, Mark.advance_moved] using moved
  | case4 before pending mark c rest unmarked notBlank broken ih =>
    have some : rest ≠ [] := by
      rintro rfl
      cases read
    obtain ⟨ended, moved⟩ := ih read (ends.skip some)
    refine ⟨ended, ?_⟩
    rw [List.cons_append, singleQuotedFrom.eq_def]
    simpa only [atAnyDocumentMark_cons ends, if_neg unmarked, if_neg notBlank, if_pos broken,
      Mark.advance_moved] using moved
  | case5 before pending mark more notBlank inLine unmarked ih =>
    obtain ⟨ended, moved⟩ := ih read ((ends.tail rfl).tail rfl)
    refine ⟨ended, ?_⟩
    have same : Cursor.atAnyDocumentMark ⟨mark.moved spot, '\x27' :: '\x27' :: (more ++ spot.more)⟩ = _ :=
      atAnyDocumentMark_cons ends
    rw [List.cons_append, List.cons_append, singleQuotedFrom.eq_def]
    simpa only [same, if_neg unmarked, if_neg notBlank, if_neg inLine, if_true, Mark.advance_moved] using moved
  | case6 before pending mark rest single unmarked notBlank inLine =>
    have ended : EndsLine rest := ends.tail rfl
    cases read
    refine ⟨ended, ?_⟩
    rw [List.cons_append, singleQuotedFrom.eq_def]
    simp only [atAnyDocumentMark_cons ends, if_neg unmarked, if_neg notBlank, if_neg inLine, if_true,
      Mark.advance_moved]
    split
    next more quoted =>
      obtain ⟨d, rest, rfl⟩ := List.exists_cons_of_ne_nil ended.ne_nil
      exact absurd (congrArg (· :: rest) (List.cons.inj quoted).1) (single rest)
    next => rfl
  | case7 before pending mark c rest unmarked notBlank inLine notQuote ih =>
    obtain ⟨ended, moved⟩ := ih read (ends.tail (by simpa using inLine))
    refine ⟨ended, ?_⟩
    rw [List.cons_append, singleQuotedFrom.eq_def]
    simpa only [atAnyDocumentMark_cons ends, if_neg unmarked, if_neg notBlank, if_neg inLine, if_neg notQuote,
      Mark.advance_moved] using moved

theorem ahead_doubleQuotedFrom {escape : Escape}
    (read : doubleQuotedFrom before pending escape mark cs = some scanned) :
    (⟨mark, cs⟩ : Cursor).Ahead scanned.cursor := by
  fun_induction doubleQuotedFrom before pending escape mark cs
  all_goals first
    | cases read; done
    | (rename_i ih; exact (ih read).of_advance)
    | skip
  cases read
  exact Cursor.ahead_advance _ _ _

/-- Only behind its quotation mark does a text end, and in front of that it never does. -/
theorem endsLine_doubleQuotedFrom {escape : Escape}
    (read : doubleQuotedFrom before pending escape mark cs = some scanned) (ends : EndsLine cs) :
    EndsLine scanned.cursor.rest := by
  fun_induction doubleQuotedFrom before pending escape mark cs
  all_goals first
    | cases read; done
    | rename_i ih
      refine ih read (ends.skip ?_)
      rintro rfl
      cases read
    | skip
  cases read
  exact ends.tail rfl

/-- Behind each character but the last the reader is in the same state in both places. -/
theorem doubleQuotedFrom_moved {escape : Escape}
    (read : doubleQuotedFrom before pending escape mark cs = some scanned) (ends : EndsLine cs) :
    EndsLine scanned.cursor.rest ∧
      doubleQuotedFrom before pending escape (mark.moved spot) (cs ++ spot.more) = some (scanned.moved spot) := by
  refine ⟨endsLine_doubleQuotedFrom read ends, ?_⟩
  induction cs generalizing before pending escape mark with
  | nil => cases read
  | cons c rest ih =>
    have onward {before pending escape}
        (read : doubleQuotedFrom before pending escape (mark.advance c) rest = some scanned) :
        doubleQuotedFrom before pending escape ((mark.advance c).moved spot) (rest ++ spot.more) =
          some (scanned.moved spot) := by
      refine ih read (ends.skip ?_)
      rintro rfl
      cases read
    rw [doubleQuotedFrom.eq_def] at read
    rw [List.cons_append, doubleQuotedFrom.eq_def]
    cases escape with
    | digits left value =>
      simp only [Mark.advance_moved] at read ⊢
      cases found : hexDigit? c with
      | none => simp [found] at read
      | some digit =>
        simp only [found] at read ⊢
        refine branch read (fun _ read => ?_) fun _ => onward
        cases point : codePoint? (value * 16 + digit) with
        | none => simp [point] at read
        | some point =>
          simp only [point] at read ⊢
          exact onward read
    | begun =>
      simp only [Mark.advance_moved] at read ⊢
      refine branch read (fun _ => onward) fun _ read => ?_
      cases escaped : escapes.find? (·.1 = c) with
      | some escaped =>
        simp only [escaped] at read ⊢
        exact onward read
      | none =>
        cases count : digitCounts.find? (·.1 = c) with
        | some count =>
          simp only [escaped, count] at read ⊢
          exact onward read
        | none => simp [escaped, count] at read
    | outside =>
      simp only [atAnyDocumentMark_cons ends, Mark.advance_moved] at read ⊢
      refine branch read (fun _ read => by cases read) fun _ read => ?_
      refine branch read (fun _ => onward) fun _ read => ?_
      refine branch read (fun _ => onward) fun _ read => ?_
      refine branch read (fun _ read => ?_) fun _ read => ?_
      · cases read
        rfl
      · exact branch read (fun _ => onward) fun _ => onward

end Quoted

section Plain

variable {flow : Bool} {indent : Int}

theorem ahead_plainFrom (read : plainFrom flow indent before pending mark cs = some scanned) :
    (⟨mark, cs⟩ : Cursor).Ahead scanned.cursor := by
  induction cs generalizing before pending mark with
  | nil =>
    cases read
    exact .refl _
  | cons c rest ih =>
    rw [plainFrom] at read
    repeat' split at read
    all_goals first
      | exact (ih read).of_advance
      | (cases read; exact .refl _)
      | cases read

/-- Behind a line break the text has ended unless the next line is deeper. -/
theorem plainFrom_landing {rest : List Char} (broken : pending.broken = true) (opens : OpensLine rest) (n : Nat)
    (shallow : ((mark.column + n : Nat) : Int) < indent) :
    plainFrom false indent before pending mark (List.replicate n ' ' ++ rest) =
      some ⟨before.reverse, ⟨mark.after (List.replicate n ' '), rest⟩, true⟩ := by
  rw [plainFrom_spaces broken]
  cases rest with
  | nil => simp [plainFrom, broken]
  | cons c rest =>
    obtain ⟨notBlank, inLine, -, -⟩ := opens c rfl
    have notNone : pending.isNone = false := by simp [Pending.isNone, broken]
    have there : ((mark.after (List.replicate n ' ')).column : Int) < indent := by
      rw [Mark.after_spaces]
      exact shallow
    simp [plainFrom, notBlank, inLine, notNone, there, broken]

/-- A text that reaches the end does so behind its last line. -/
theorem plainFrom_broken (read : plainFrom flow indent before pending mark cs = some scanned)
    (ends : EndsLine cs ∨ cs = [] ∧ pending.broken = true) (done : scanned.cursor.rest = []) :
    scanned.broken = true := by
  induction cs generalizing before pending mark with
  | nil =>
    cases read
    exact (ends.resolve_left fun ended => ended.ne_nil rfl).2
  | cons c rest ih =>
    have ends : EndsLine (c :: rest) := ends.resolve_right (by simp)
    have stopped (read : some ⟨before.reverse, ⟨mark, c :: rest⟩, pending.broken⟩ = some scanned) :
        scanned.broken = true := by
      cases read
      cases done
    rw [plainFrom] at read
    split at read
    next blank =>
      split at read
      · cases read
      · exact ih read (.inl (ends.tail (not_isBreak_of_isBlank blank)))
    split at read
    next broken =>
      refine ih read ?_
      rcases eq_or_ne rest [] with rfl | some
      · exact .inr ⟨rfl, Pending.broken_addBreak _ c⟩
      · exact .inl (ends.skip some)
    next inLine =>
      have ended : EndsLine rest := ends.tail (by simpa using inLine)
      repeat' split at read
      all_goals first
        | exact stopped read
        | exact ih read (.inl ended)
        | cases read

/-- The induction follows the reader. Only where a line ends can the end of the text come next. -/
theorem plainFrom_landed (spot : Spot) (read : plainFrom flow indent before pending mark cs = some scanned)
    (ends : EndsLine cs ∨ cs = [] ∧ pending.broken = true ∧ mark.column = 0)
    (shallow : scanned.cursor.rest = [] → flow = false ∧ (spot.column : Int) < indent) :
    plainFrom flow indent before pending (mark.moved spot) (cs ++ spot.more) = some (scanned.landed spot) := by
  induction cs generalizing before pending mark with
  | nil =>
    obtain ended | ⟨-, broken, start⟩ := ends
    · exact absurd rfl ended.ne_nil
    cases read
    obtain ⟨rfl, shallow⟩ := shallow rfl
    rw [List.nil_append, Spot.more, plainFrom_landing broken spot.opens spot.column (by simpa [start] using shallow)]
    simp [Scanned.landed, Cursor.landed, broken]
  | cons c rest ih =>
    have ends : EndsLine (c :: rest) := ends.resolve_right (by simp)
    have stopped (read : some ⟨before.reverse, ⟨mark, c :: rest⟩, pending.broken⟩ = some scanned) :
        some ⟨before.reverse, ⟨mark.moved spot, c :: (rest ++ spot.more)⟩, pending.broken⟩ =
          some (scanned.landed spot) := by
      cases read
      rfl
    rw [plainFrom] at read
    rw [List.cons_append, plainFrom]
    simp only [Mark.advance_moved]
    refine branch read (fun blank read => ?_) fun notBlank read => ?_
    · refine branch read (fun _ read => by cases read) fun _ read => ?_
      exact ih read (.inl (ends.tail (not_isBreak_of_isBlank blank)))
    refine branch read (fun broken read => ih read ?_) fun notBroken read => ?_
    · rcases eq_or_ne rest [] with rfl | some
      · exact .inr ⟨rfl, Pending.broken_addBreak _ c, by rw [Mark.advance_of_isBreak broken]⟩
      · exact .inl (ends.skip some)
    have ended : EndsLine rest := ends.tail (by simpa using notBroken)
    simp only [atAnyDocumentMark_cons ends, head?_append_of_ne_nil ended.ne_nil, gapNext_append ended.ne_nil]
    refine branch read (fun _ => stopped) fun _ read => ?_
    refine branch read (fun _ => stopped) fun _ read => ?_
    refine branch read (fun _ => stopped) fun _ read => ?_
    refine branch read (fun _ read => by cases read) fun _ read => ?_
    refine branch read (fun _ => stopped) fun _ read => ?_
    exact branch read (fun _ => stopped) fun _ read => ih read (.inl ended)

/-- Within one line a plain text does not depend on the column of its block. -/
theorem plainFrom_inLine {other : Int} (read : plainFrom flow indent before pending mark cs = some scanned)
    (inLine : scanned.cursor.mark.line ≤ mark.line) (unbroken : pending.broken = false)
    (deep : indent ≤ mark.column + 1 ∧ other ≤ mark.column + 1)
    (inside : pending.isNone = false → indent ≤ mark.column ∧ other ≤ mark.column) :
    plainFrom flow other before pending mark cs = some scanned := by
  induction cs generalizing before pending mark with
  | nil => exact read
  | cons c rest ih =>
    have further (c : Char) (notBreak : isBreak c = false) : (mark.advance c).line = mark.line ∧
        (mark.advance c).column = mark.column + 1 := by
      rw [Mark.advance_of_not_isBreak notBreak]
      exact ⟨rfl, rfl⟩
    rw [plainFrom] at read ⊢
    simp only [unbroken, Bool.false_and, Bool.false_eq_true, if_false] at read ⊢
    refine branch read (fun blank read => ?_) fun _ read => ?_
    · obtain ⟨line, column⟩ := further c (not_isBreak_of_isBlank blank)
      refine ih read (line ▸ inLine) (by simp [Pending.addBlank, unbroken]) ?_ fun _ => ?_
      all_goals
        rw [column]
        omega
    refine branch read (fun broken read => ?_) fun notBroken read => ?_
    · have later := (ahead_plainFrom read).line_le
      rw [Mark.advance_of_isBreak broken] at later
      have later : mark.line + 1 ≤ scanned.cursor.mark.line := later
      omega
    have same (column : Int) (shallow : pending.isNone = false → column ≤ mark.column) :
        (!pending.isNone && !flow && decide ((mark.column : Int) < column)) = false := by
      cases none : pending.isNone with
      | true => rfl
      | false =>
        have shallow := shallow none
        simp
        omega
    rw [same indent fun none => (inside none).1, if_neg Bool.false_ne_true] at read
    rw [same other fun none => (inside none).2, if_neg Bool.false_ne_true]
    refine branch read (fun _ => id) fun _ read => ?_
    refine branch read (fun _ => id) fun _ read => ?_
    refine branch read (fun _ => id) fun _ read => ?_
    refine branch read (fun _ => id) fun _ read => ?_
    refine branch read (fun _ => id) fun _ read => ?_
    obtain ⟨line, column⟩ := further c (by simpa using notBroken)
    refine ih read (line ▸ inLine) rfl ?_ (by simp)
    rw [column]
    omega

end Plain

section Blocks

variable {indent deepest : Nat} {breaks : List Char} {margin : Margin} {cursor : Cursor}

theorem ahead_marginFrom (read : marginFrom indent breaks deepest mark cs = some margin) :
    (⟨mark, cs⟩ : Cursor).Ahead margin.cursor := by
  induction cs generalizing breaks deepest mark with
  | nil =>
    cases read
    exact .refl _
  | cons c rest ih =>
    simp only [marginFrom] at read
    repeat' split at read
    · exact (ih read).of_advance
    · cases read
    · exact (ih read).of_advance
    · cases read
      exact .refl _

/-- The spaces of the line behind the text belong to its margin. -/
theorem marginFrom_landing {rest : List Char} (opens : OpensLine rest) (n : Nat)
    (shallow : indent = 0 ∨ mark.column + n < indent) :
    marginFrom indent breaks deepest mark (List.replicate n ' ' ++ rest) =
      some ⟨breaks, max deepest (mark.column + n), ⟨mark.after (List.replicate n ' '), rest⟩⟩ := by
  rw [marginFrom_spaces n (by omega), marginFrom_end, Mark.after_spaces]
  exact fun c first => ⟨(opens c first).2.1, fun _ => (opens c first).1⟩

theorem marginFrom_landed (read : marginFrom indent breaks deepest mark cs = some margin)
    (whole : Cursor.Whole ⟨mark, cs⟩) (shallow : indent = 0 ∨ spot.column < indent) :
    ∃ deeper, max deeper spot.column = max margin.deepest spot.column ∧
      marginFrom indent breaks deepest (mark.moved spot) (cs ++ spot.more) =
        some ⟨margin.breaks, deeper, margin.cursor.landed spot⟩ := by
  induction cs generalizing breaks deepest mark with
  | nil =>
    have start : mark.column = 0 := (whole.resolve_left fun ended => ended.ne_nil rfl).2
    cases read
    refine ⟨max deepest spot.column, by simp [start], ?_⟩
    rw [List.nil_append, Spot.more, marginFrom_landing spot.opens spot.column (by simpa [start] using shallow)]
    simp [Cursor.landed, start]
  | cons c rest ih =>
    have later : Cursor.Whole ⟨mark.advance c, rest⟩ := (Cursor.ahead_advance mark c rest).whole whole
    simp only [marginFrom] at read
    simp only [List.cons_append, marginFrom, Mark.column_moved, Mark.advance_moved]
    split at read
    next space => exact if_pos space ▸ ih read later
    next notSpace =>
    simp only [if_neg notSpace]
    split at read
    · cases read
    next notTab =>
    simp only [if_neg notTab]
    split at read
    next broken =>
      rw [if_pos broken]
      exact ih read later
    next inLine =>
      rw [if_neg inLine]
      cases read
      exact ⟨_, rfl, rfl⟩

variable {isLiteral blankBefore : Bool} {text lineBreak : List Char} {fuel more : Nat}
  {result : List Char × List Char × List Char × Cursor}

theorem ahead_blockLines (read : blockLines isLiteral indent text lineBreak breaks blankBefore cursor fuel =
    some result) : cursor.Ahead result.2.2.2 := by
  induction fuel generalizing text lineBreak breaks blankBefore cursor with
  | zero => cases read
  | succ fuel ih =>
    simp only [blockLines] at read
    split at read
    · split at read
      · cases read
      next margin found =>
        exact (Cursor.ahead_span _ _).trans ((Cursor.ahead_skip _ 1).trans ((ahead_marginFrom found).trans (ih read)))
    · cases read
      exact .refl _

/-- The lines of a block text are deeper than the line behind it. -/
theorem blockLines_landed (read : blockLines isLiteral indent text lineBreak breaks blankBefore cursor fuel =
      some result) (whole : cursor.Whole) (shallow : spot.column < indent) (enough : fuel ≤ more) :
    blockLines isLiteral indent text lineBreak breaks blankBefore (cursor.landed spot) more =
      some (result.1, result.2.1, result.2.2.1, result.2.2.2.landed spot) := by
  induction fuel generalizing text lineBreak breaks blankBefore cursor more with
  | zero => cases read
  | succ fuel ih =>
    obtain ⟨more, rfl⟩ := Nat.exists_eq_add_of_le' (Nat.le_trans (Nat.le_add_left 1 fuel) enough)
    simp only [blockLines] at read ⊢
    obtain ended | ⟨done, start⟩ := whole
    · have some := ended.ne_nil
      simp only [Cursor.landed_of_ne_nil some]
      have inLine (c : Char) (broken : isBreak c = true) : (!isBreak c) = false := by simp [broken]
      have afterLine := Cursor.endsLine_span inLine ended
      split at read
      next inside =>
        have inside' : (cursor.moved spot).column = indent ∧ (cursor.moved spot).rest ≠ [] :=
          ⟨inside.1, by simp [some]⟩
        rw [if_pos inside']
        simp only [Cursor.next?_moved some, Cursor.span_moved inLine ended,
          Cursor.skip_one_moved afterLine.ne_nil, Cursor.mark_moved, Cursor.rest_moved]
        split at read
        · cases read
        next margin found =>
          have ahead := (Cursor.ahead_span cursor (!isBreak ·)).trans (Cursor.ahead_skip _ 1)
          have later : ((cursor.span (!isBreak ·)).2.skip 1).Whole := ahead.whole (.inl ended)
          obtain ⟨deeper, -, moved⟩ := @marginFrom_landed spot _ _ _ _ _ _ found later (.inr shallow)
          simp only [moved]
          have oneBreak : ((cursor.span (!isBreak ·)).2.moved spot).rest.take 1 =
              (cursor.span (!isBreak ·)).2.rest.take 1 :=
            List.take_append_of_le_length (List.length_pos_iff.mpr afterLine.ne_nil)
          simp only [Cursor.rest_moved] at oneBreak
          rw [oneBreak]
          exact ih read ((ahead_marginFrom found).whole later) (Nat.le_of_succ_le_succ enough)
      next outside =>
        have outside' : ¬((cursor.moved spot).column = indent ∧ (cursor.moved spot).rest ≠ []) := by
          simpa [some] using outside
        rw [if_neg outside']
        cases read
        simp [Cursor.landed_of_ne_nil some]
    · have there : (cursor.landed spot).column ≠ indent := by
        rw [Cursor.landed_of_end done, Cursor.column, Mark.after_spaces]
        show cursor.column + spot.column ≠ indent
        omega
      rw [if_neg (by simp [done])] at read
      rw [if_neg (by simp [there])]
      cases read
      rfl

/-- A line break is no sign of a header. -/
theorem blockHeader_moved (ends : EndsLine cs) (more : List Char) : blockHeader (cs ++ more) = blockHeader cs := by
  obtain _ | ⟨c, _ | ⟨d, rest⟩⟩ := cs
  · exact absurd rfl ends.ne_nil
  · obtain ⟨_, ⟨⟩, broken⟩ := ends
    simp only [isBreak, Bool.or_eq_true, decide_eq_true_eq] at broken
    cases more with
    | nil => rfl
    | cons d more => rcases broken with (((rfl | rfl) | rfl) | rfl) | rfl <;> rfl
  · rfl

theorem blockHeader_inLine {chomping : Chomping} {increment signs : Nat}
    (read : blockHeader cs = some (chomping, increment, signs)) : ∀ c ∈ cs.take signs, isBreak c = false := by
  have digitInLine (c : Char) (isDigit : c.isDigit = true) : isBreak c = false := by
    rw [← Bool.not_eq_true]
    intro broken
    have noDigit : c.isDigit = false := of_isBreak (by decide) c broken
    cases isDigit.symm.trans noDigit
  have signInLine (c : Char) (chomping : Chomping)
      (isSign : (if c = '+' then some Chomping.keep else if c = '-' then some .strip else none) = some chomping) :
      isBreak c = false := by
    split at isSign
    next plus => exact plus ▸ rfl
    next =>
      split at isSign
      next minus => exact minus ▸ rfl
      next => cases isSign
  obtain _ | ⟨c, _ | ⟨d, rest⟩⟩ := cs
  · simp
  · simp only [blockHeader] at read
    repeat' split at read
    all_goals cases read
    all_goals simp_all [isBreak]
  · simp only [blockHeader] at read
    split at read
    next chomping isSign =>
      have first := signInLine c _ isSign
      repeat' split at read
      all_goals cases read
      all_goals simp_all
    next =>
      repeat' split at read
      all_goals cases read
      all_goals simp_all

variable {outer : Int}

theorem ahead_block? (read : block? isLiteral outer cursor = some scanned) :
    (cursor.skip 1).Ahead scanned.cursor ∧ scanned.broken = true := by
  simp only [block?, Option.bind_eq_bind] at read
  obtain ⟨⟨chomping, increment, signs⟩, -, read⟩ := Option.bind_eq_some_iff.mp read
  obtain ⟨first, finished, read⟩ := Option.bind_eq_some_iff.mp read
  obtain ⟨margin, found, read⟩ := Option.bind_eq_some_iff.mp read
  obtain ⟨⟨text, lineBreak, breaks, last⟩, lines, read⟩ := Option.bind_eq_some_iff.mp read
  cases read
  exact ⟨(Cursor.ahead_skip _ signs).trans ((Cursor.ahead_finishLine? finished).trans
    ((ahead_marginFrom found).trans (ahead_blockLines lines))), rfl⟩

theorem block?_landed (read : block? isLiteral outer cursor = some scanned)
    (ends : EndsLine (cursor.skip 1).rest) (shallow : (spot.column : Int) ≤ outer) :
    block? isLiteral outer (cursor.moved spot) = some (scanned.landed spot) := by
  simp only [block?, Option.bind_eq_bind] at read ⊢
  rw [Cursor.skip_moved ends.ne_nil, Cursor.rest_moved, blockHeader_moved ends]
  obtain ⟨⟨chomping, increment, signs⟩, header, read⟩ := Option.bind_eq_some_iff.mp read
  obtain ⟨first, finished, read⟩ := Option.bind_eq_some_iff.mp read
  obtain ⟨margin, found, read⟩ := Option.bind_eq_some_iff.mp read
  obtain ⟨⟨text, lineBreak, breaks, last⟩, lines, read⟩ := Option.bind_eq_some_iff.mp read
  cases read
  have afterHeader := Cursor.endsLine_skip ends (blockHeader_inLine header)
  rw [header, Option.bind_some, Cursor.skip_moved afterHeader.ne_nil, Cursor.finishLine?_moved afterHeader, finished]
  have whole : first.Whole := (Cursor.ahead_finishLine? finished).whole (.inl afterHeader)
  simp only [Option.map_some, Option.bind_some, Cursor.mark_moved, Cursor.rest_moved] at found lines ⊢
  have fits : (if increment = 0 then 0 else (max outer 0).toNat + increment) = 0 ∨
      spot.column < if increment = 0 then 0 else (max outer 0).toNat + increment := by
    split <;> omega
  generalize (if increment = 0 then 0 else (max outer 0).toNat + increment) = given at found lines fits ⊢
  obtain ⟨deeper, depth, moved⟩ := @marginFrom_landed spot _ _ _ _ _ _ found whole fits
  simp only [moved, Option.bind_some]
  have same : max deeper (max (outer + 1) 1).toNat = max margin.deepest (max (outer + 1) 1).toNat := by omega
  have longer : margin.cursor.rest.length ≤ (margin.cursor.landed spot).rest.length := by
    unfold Cursor.landed
    split
    next done => simp [done]
    next => simp
  have deep : spot.column < if given = 0 then max margin.deepest (max (outer + 1) 1).toNat else given := by
    split <;> omega
  rw [same, blockLines_landed lines ((ahead_marginFrom found).whole whole) deep (Nat.succ_le_succ longer)]
  rfl

end Blocks

end Colorization.Yaml
