import Colorization.Proofs.Yaml.Plain

/-! A single-quoted text is read back. Its line breaks are those that are kept, and the blanks that
indent the lines behind them are dropped. -/
namespace Colorization.Yaml

/-- Whether a line begins behind a text, given whether one begins in front of it. -/
def endsBroken (fresh : Bool) : List Char → Bool
  | [] => fresh
  | c :: rest => endsBroken (isBreak c) rest

theorem endsBroken_eq (fresh : Bool) (cs : List Char) :
    endsBroken fresh cs = (cs.getLast?.map isBreak).getD fresh := by
  induction cs generalizing fresh with
  | nil => rfl
  | cons c rest ih =>
    rw [endsBroken, ih, List.getLast?_cons]
    cases rest.getLast? <;> rfl

/-- What is written between the quotes from a point on at which a line may have begun. -/
def quotedLines (indent : Nat) (fresh : Bool) (cs : List Char) : List Char :=
  indented indent doubledQuote fresh cs ++ if endsBroken fresh cs then List.replicate indent ' ' else []

theorem singleQuoted_eq (indent : Nat) (cs : List Char) :
    singleQuoted indent cs = '\x27' :: (quotedLines indent false cs ++ ['\x27']) := by
  have ends : endsBroken false cs = cs.getLast?.any isBreak := by
    rw [endsBroken_eq]
    cases cs.getLast? <;> rfl
  simp [singleQuoted, quotedLines, ends]

/-- What belongs to the text once more of it comes: blanks in a line, or breaks, of which the first
is no line feed. -/
inductive Pending.Kept : Pending → Prop where
  | blanks (blanks : List Char) : Kept (.ofBlanks blanks)
  | breaks {c : Char} (later : List Char) : c ≠ '\n' → Kept ⟨[], true, [c], later⟩

/-- What may follow: no break behind blanks, and no space behind breaks. -/
def Pending.Fits (pending : Pending) (cs : List Char) : Prop :=
  ∀ c ∈ cs.head?, (isBreak c = true → pending.broken = true ∨ pending.blanks = []) ∧
    (c = ' ' → pending.broken = false)

variable {before cs rest tail : List Char} {mark : Mark} {pending : Pending} {indent : Nat} {c : Char}

theorem Pending.Fits.ofNothing (cs : List Char) : (ofBlanks []).Fits cs :=
  fun _ _ => ⟨fun _ => .inr rfl, fun _ => rfl⟩

theorem Pending.Kept.joined_addBreak (kept : pending.Kept)
    (fits : pending.broken = true ∨ pending.blanks = []) (notFeed : c ≠ '\n') :
    (pending.addBreak c).joined = pending.joined ++ [c] := by
  cases kept with
  | blanks blanks =>
    obtain rfl : blanks = [] := by simpa [ofBlanks] using fits
    simp [addBreak, joined, ofBlanks, notFeed]
  | breaks later first => simp [addBreak, joined, first]

theorem Pending.Kept.addBreak (kept : pending.Kept) (notFeed : c ≠ '\n') : (pending.addBreak c).Kept := by
  cases kept with
  | blanks => exact .breaks [] notFeed
  | breaks later first => exact .breaks _ first

theorem Pending.broken_addBreak (pending : Pending) (c : Char) : (pending.addBreak c).broken = true := by
  unfold addBreak
  split
  · assumption
  · rfl

theorem anyPair_tail {first second : Char → Bool} (free : anyPair first second (c :: cs) = false) :
    anyPair first second cs = false := by
  cases cs with
  | nil => rfl
  | cons next rest =>
    rw [anyPair, Bool.or_eq_false_iff] at free
    exact free.2

theorem anyPair_head {first second : Char → Bool} (free : anyPair first second (c :: cs) = false)
    (isFirst : first c = true) : ∀ next ∈ cs.head?, second next = false := by
  cases cs with
  | nil => simp
  | cons next rest =>
    rw [anyPair, Bool.or_eq_false_iff, isFirst, Bool.true_and] at free
    simpa using free.1

section Steps

theorem singleQuotedFrom_space (before : List Char) (pending : Pending) (mark : Mark) (rest : List Char) :
    singleQuotedFrom before pending mark (' ' :: rest) =
      singleQuotedFrom before (pending.addBlank ' ') (mark.advance ' ') rest := by
  have noMark : Cursor.atAnyDocumentMark ⟨mark, ' ' :: rest⟩ = false :=
    Cursor.not_atAnyDocumentMark_of_head fun c same => by
      cases same
      exact ⟨by decide, by decide⟩
  rw [singleQuotedFrom.eq_def]
  simp [noMark, isBlank]

theorem singleQuotedFrom_spaces (broken : pending.broken = true) (n : Nat) :
    singleQuotedFrom before pending mark (List.replicate n ' ' ++ rest) =
      singleQuotedFrom before pending (mark.after (List.replicate n ' ')) rest := by
  induction n generalizing mark with
  | zero => rfl
  | succ n ih =>
    have same : pending.addBlank ' ' = pending := by simp [Pending.addBlank, broken]
    rw [List.replicate_succ, List.cons_append, singleQuotedFrom_space, same, ih]
    rfl

theorem singleQuotedFrom_break (isBroken : isBreak c = true) (before : List Char) (pending : Pending)
    (mark : Mark) (rest : List Char) : singleQuotedFrom before pending mark (c :: rest) =
      singleQuotedFrom before (pending.addBreak c) (mark.advance c) rest := by
  have noMark : Cursor.atAnyDocumentMark ⟨mark, c :: rest⟩ = false :=
    Cursor.not_atAnyDocumentMark_of_head fun other same => by
      cases same
      constructor <;> (rintro rfl; cases isBroken)
  rw [singleQuotedFrom.eq_def]
  simp [noMark, isBroken, not_isBlank_of_isBreak isBroken]

/-- A quote is written twice, and any other character once. -/
theorem singleQuotedFrom_char (notBlank : isBlank c = false) (inLine : isBreak c = false)
    (inside : 0 < mark.column) : singleQuotedFrom before pending mark (doubledQuote c ++ rest) =
      singleQuotedFrom (c :: pending.flush before) .none (mark.after (doubledQuote c)) rest := by
  have noMark (more : List Char) : Cursor.atAnyDocumentMark ⟨mark, c :: more⟩ = false :=
    Cursor.not_atAnyDocumentMark_of_column inside
  unfold doubledQuote
  split
  next quote =>
    subst quote
    rw [List.cons_append, List.cons_append, List.nil_append, singleQuotedFrom.eq_def]
    simp [noMark, isBlank, isBreak]
  next notQuote =>
    rw [List.cons_append, List.nil_append, singleQuotedFrom.eq_def]
    simp [noMark, notBlank, inLine, notQuote]

theorem singleQuotedFrom_close (closed : tail.head? ≠ some '\x27') :
    singleQuotedFrom before pending mark ('\x27' :: tail) =
      some ⟨(pending.flush before).reverse, ⟨mark.advance '\x27', tail⟩, false⟩ := by
  have noMark : Cursor.atAnyDocumentMark ⟨mark, '\x27' :: tail⟩ = false :=
    Cursor.not_atAnyDocumentMark_of_head fun c same => by
      cases same
      exact ⟨by decide, by decide⟩
  rw [singleQuotedFrom.eq_def]
  simp only [noMark, Bool.false_eq_true, if_false, show isBlank '\x27' = false from rfl,
    show isBreak '\x27' = false from rfl, if_true]
  split
  next more => exact absurd rfl closed
  next => rfl

end Steps

/-- A character of the text that is no space and no break, at the start of a line or in it. -/
theorem singleQuotedFrom_indented (notBlank : isBlank c = false) (inLine : isBreak c = false)
    (deep : 0 < indent) (inside : pending.broken = false → 0 < mark.column) :
    singleQuotedFrom before pending mark
        ((if pending.broken then List.replicate indent ' ' else []) ++ (doubledQuote c ++ rest)) =
      singleQuotedFrom (c :: pending.flush before) .none
        (mark.after ((if pending.broken then List.replicate indent ' ' else []) ++ doubledQuote c))
        rest := by
  cases broken : pending.broken with
  | false => exact singleQuotedFrom_char notBlank inLine (inside broken)
  | true =>
    have moved : 0 < (mark.after (List.replicate indent ' ')).column := by
      rw [Mark.after_spaces]
      exact Nat.add_pos_right _ deep
    simp only [if_true]
    rw [singleQuotedFrom_spaces broken, singleQuotedFrom_char notBlank inLine moved, Mark.after_append]

theorem column_after_doubledQuote (inLine : isBreak c = false) (cs : List Char) :
    0 < (mark.after (cs ++ doubledQuote c)).column := by
  unfold doubledQuote
  split <;> simp [Mark.advance_of_not_isBreak inLine]

section Lines

theorem quotedLines_nil (indent : Nat) (fresh : Bool) :
    quotedLines indent fresh [] = if fresh then List.replicate indent ' ' else [] := rfl

theorem quotedLines_break (broken : isBreak c = true) (indent : Nat) (fresh : Bool) (cs : List Char) :
    quotedLines indent fresh (c :: cs) = c :: quotedLines indent true cs := by
  simp [quotedLines, indented, endsBroken, broken]

theorem quotedLines_char (inLine : isBreak c = false) (indent : Nat) (fresh : Bool) (cs : List Char) :
    quotedLines indent fresh (c :: cs) =
      ((if fresh then List.replicate indent ' ' else []) ++ doubledQuote c) ++
        quotedLines indent false cs := by
  simp [quotedLines, indented, endsBroken, inLine]

theorem quotedLines_space (indent : Nat) (cs : List Char) :
    quotedLines indent false (' ' :: cs) = ' ' :: quotedLines indent false cs := by
  rw [quotedLines_char rfl]
  rfl

end Lines

/-- What stands between the quotes. The induction is on the text; what is pending is what was read
since its last character that is neither a space nor a break. -/
theorem singleQuotedFrom_text (kept : pending.Kept) (fits : pending.Fits cs)
    (printable : ∀ c ∈ cs, isPrintable c = true) (unfed : '\n' ∉ cs)
    (noLead : anyPair isBreak isSpace cs = false) (noTrail : anyPair isSpace isBreak cs = false)
    (deep : 0 < indent) (inside : pending.broken = false → 0 < mark.column)
    (closed : tail.head? ≠ some '\x27') :
    singleQuotedFrom before pending mark (quotedLines indent pending.broken cs ++ '\x27' :: tail) =
      some ⟨before.reverse ++ pending.joined ++ cs,
        ⟨(mark.after (quotedLines indent pending.broken cs)).advance '\x27', tail⟩, false⟩ := by
  induction cs generalizing before pending mark with
  | nil =>
    cases broken : pending.broken with
    | false => simp [quotedLines_nil, singleQuotedFrom_close closed, Pending.flush]
    | true =>
      simp [quotedLines_nil, singleQuotedFrom_spaces broken, singleQuotedFrom_close closed, Pending.flush]
  | cons c cs ih =>
    rw [List.forall_mem_cons] at printable
    rw [List.mem_cons, not_or] at unfed
    have later {pending : Pending} {before : List Char} {mark : Mark} (kept : pending.Kept)
        (fits : pending.Fits cs) (inside : pending.broken = false → 0 < mark.column) :
        singleQuotedFrom before pending mark (quotedLines indent pending.broken cs ++ '\x27' :: tail) = _ :=
      ih kept fits printable.2 unfed.2 (anyPair_tail noLead) (anyPair_tail noTrail) inside
    obtain ⟨breakFits, spaceFits⟩ := fits c rfl
    by_cases broken : isBreak c = true
    · have notFeed : c ≠ '\n' := Ne.symm unfed.1
      have fitsLater : (pending.addBreak c).Fits cs := by
        refine fun next first => ⟨fun _ => .inl (pending.broken_addBreak c), ?_⟩
        rintro rfl
        have := anyPair_head noLead broken _ first
        cases this
      have isFresh := pending.broken_addBreak c
      rw [quotedLines_break broken, List.cons_append, singleQuotedFrom_break broken, ← isFresh,
        later (kept.addBreak notFeed) fitsLater (fun inLine => by rw [isFresh] at inLine; cases inLine),
        kept.joined_addBreak (breakFits broken) notFeed, isFresh]
      simp
    · rw [Bool.not_eq_true] at broken
      by_cases space : c = ' '
      · subst space
        have inLine := spaceFits rfl
        obtain ⟨blanks⟩ | _ := kept
        · have fitsLater : (Pending.ofBlanks (blanks ++ [' '])).Fits cs := by
            refine fun next first => ⟨fun isBroken => ?_, fun _ => rfl⟩
            rw [anyPair_head noTrail rfl _ first] at isBroken
            cases isBroken
          have moved : 0 < (mark.advance ' ').column := by simp [Mark.advance_of_not_isBreak broken]
          rw [Pending.broken_ofBlanks, quotedLines_space, List.cons_append, singleQuotedFrom_space,
            Pending.addBlank_ofBlanks, ← Pending.broken_ofBlanks (blanks ++ [' ']),
            later (.blanks _) fitsLater fun _ => moved]
          simp
        · cases inLine
      · have notBlank := not_isBlank_of_ne_space printable.1 space
        rw [quotedLines_char broken, List.append_assoc, List.append_assoc,
          singleQuotedFrom_indented notBlank broken deep inside, ← Pending.ofBlanks_nil,
          ← Pending.broken_ofBlanks [],
          later (.blanks []) (.ofNothing cs) fun _ => column_after_doubledQuote broken _]
        simp [Pending.flush]

/-- A text written in single quotes is read back from behind the first of them. -/
theorem singleQuotedFrom_singleQuoted (allowed : singleQuotedAllowed cs = true) (unfed : '\n' ∉ cs)
    (deep : 0 < indent) (inside : 0 < mark.column) (closed : tail.head? ≠ some '\x27') :
    singleQuotedFrom [] .none mark ((singleQuoted indent cs).tail ++ tail) =
      some ⟨cs, ⟨mark.after (singleQuoted indent cs).tail, tail⟩, false⟩ := by
  simp only [singleQuotedAllowed, Bool.and_eq_true, Bool.not_eq_true', List.all_eq_true] at allowed
  obtain ⟨⟨printable, noLead⟩, noTrail⟩ := allowed
  rw [singleQuoted_eq, List.tail_cons, List.append_assoc, List.singleton_append, ← Pending.ofBlanks_nil,
    ← Pending.broken_ofBlanks [], singleQuotedFrom_text (.blanks []) (.ofNothing cs) printable unfed noLead
    noTrail deep (fun _ => inside) closed]
  simp

end Colorization.Yaml
