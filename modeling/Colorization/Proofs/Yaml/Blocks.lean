import Colorization.Proofs.Yaml.Scalar

/-! The lexemes of a printed mapping. Each entry is read up to the start of the line behind it, where
the blocks that have ended are closed. -/
namespace Colorization.Yaml

def isNameChar (c : Char) : Bool := c.isLower || c = '_'

/-- A text that is a key as it stands. -/
def IsName (key : String) : Prop :=
  key.toList ≠ [] ∧ key.toList.length ≤ 1024 ∧ ∀ c ∈ key.toList, isNameChar c = true

instance (key : String) : Decidable (IsName key) :=
  decidable_of_iff (key.toList ≠ [] ∧ key.toList.length ≤ 1024 ∧ key.toList.all isNameChar = true)
    (by simp only [IsName, List.all_eq_true])

mutual

/-- Keys are names, words are plain, and there is no block without entries. -/
def Block.Legible : Block → Prop
  | .word text => plainAllowed text.toList = true ∧ text.toList ≠ []
  | .text _ => True
  | .list _ => True
  | .entries blocks => blocks ≠ [] ∧ LegibleEntries blocks

def LegibleEntries : List (String × Block) → Prop
  | [] => True
  | (key, block) :: rest => IsName key ∧ block.Legible ∧ LegibleEntries rest

end

mutual

/-- The lexemes behind the colon of a key. -/
def Block.kinds : Block → List Kind
  | .word text => [.scalar true text]
  | .text value => [Scanner.scalarKind value]
  | .list [] => [.flowSequenceStart, .flowSequenceEnd]
  | .list (first :: rest) =>
    (first :: rest).flatMap fun item => [.blockEntry, Scanner.scalarKind item]
  | .entries blocks => .blockMappingStart :: (entriesKinds blocks ++ [.blockEnd])

def entriesKinds : List (String × Block) → List Kind
  | [] => []
  | (key, block) :: rest => .key :: .scalar true key :: .value :: (block.kinds ++ entriesKinds rest)

end

section Ends

theorem endLine_cons {c : Char} (inLine : isBreak c = false) (cs : List Char) :
    endLine (c :: cs) = c :: endLine cs := by
  rw [endLine_eq, endLine_eq]
  cases cs with
  | nil => simp [lineEnd, inLine]
  | cons d cs => simp [lineEnd, List.getLast?_cons_cons]

theorem endLine_append {before : List Char} (inLine : ∀ c ∈ before, isBreak c = false) (cs : List Char) :
    endLine (before ++ cs) = before ++ endLine cs := by
  induction before with
  | nil => rfl
  | cons c before ih =>
    rw [List.forall_mem_cons] at inLine
    rw [List.cons_append, endLine_cons inLine.1, ih inLine.2, List.cons_append]

theorem column_after_endLine (mark : Mark) (cs : List Char) (column : Nat) :
    (mark.after (endLine cs ++ List.replicate column ' ')).column = column := by
  have ended : ∃ before last, endLine cs = before ++ [last] ∧ isBreak last = true := by
    unfold endLine
    split
    next broken =>
      obtain ⟨last, found, broken⟩ := Option.any_eq_true _ _ |>.mp broken
      obtain ⟨before, rfl⟩ := List.getLast?_eq_some_iff.mp found
      exact ⟨before, last, rfl, by simpa using broken⟩
    next => exact ⟨cs, '\n', rfl, rfl⟩
  obtain ⟨before, last, same, broken⟩ := ended
  rw [same, Mark.after_append, Mark.after_append, Mark.after_cons, Mark.after_nil,
    Mark.advance_of_isBreak broken, Mark.after_spaces]
  exact Nat.zero_add _

end Ends

section Names

variable {mark : Mark} {rest tail cs before : List Char} {indent : Int} {outer : List Int}
  {lexemes : List Lexeme} {c : Char}

/-- Characters that are not read as part of a name. -/
def specialChars : List Char :=
  [' ', '\t', '\n', '\r', '\x85', '\u2028', '\u2029', '\x00', '.', '\uFEFF'] ++ Scanner.indicators

theorem ne_of_isNameChar (named : isNameChar c = true) : ∀ special ∈ specialChars, c ≠ special := by
  have unnamed : specialChars.all (fun special => !isNameChar special) = true := by decide
  rintro _ member rfl
  have isUnnamed := List.all_eq_true.mp unnamed c member
  rw [named] at isUnnamed
  cases isUnnamed

theorem not_isGap_of_isNameChar (named : isNameChar c = true) : isGap c = false := by
  have other := ne_of_isNameChar named
  simp only [specialChars, List.cons_append, List.forall_mem_cons] at other
  simp [isGap, isBlank, isBreak, other]

theorem opensLine_of_isNameChar (named : isNameChar c = true) (rest : List Char) : OpensLine (c :: rest) := by
  intro first same
  obtain rfl := Option.some.inj same
  have other := ne_of_isNameChar named
  simp only [specialChars, Scanner.indicators, List.cons_append, List.forall_mem_cons,
    List.nil_append] at other
  simp [isBlank, isBreak, isOrderMark, other]

theorem not_atAnyDocumentMark_of_isNameChar (named : isNameChar c = true) (mark : Mark) (rest : List Char) :
    Cursor.atAnyDocumentMark ⟨mark, c :: rest⟩ = false := by
  refine Cursor.not_atAnyDocumentMark_of_head fun first same => ?_
  obtain rfl := Option.some.inj same
  have other := ne_of_isNameChar named
  exact ⟨other '-' (by decide), other '.' (by decide)⟩

theorem plainFrom_name (named : ∀ c ∈ cs, isNameChar c = true) (gap : gapNext rest = true) :
    plainFrom false indent before .none mark (cs ++ ':' :: rest) =
      some ⟨before.reverse ++ cs, ⟨mark.after cs, ':' :: rest⟩, false⟩ := by
  induction cs generalizing before mark with
  | nil =>
    have noMark : Cursor.atAnyDocumentMark ⟨mark, ':' :: rest⟩ = false :=
      Cursor.not_atAnyDocumentMark_of_head fun c same => by
        cases same
        exact ⟨by decide, by decide⟩
    rw [List.nil_append, plainFrom]
    simp [isBlank, isBreak, noMark, gap]
  | cons c cs ih =>
    rw [List.forall_mem_cons] at named
    have noMark := not_atAnyDocumentMark_of_isNameChar named.1 mark (cs ++ ':' :: rest)
    have noGap := not_isGap_of_isNameChar named.1
    rw [isGap, Bool.or_eq_false_iff, Bool.or_eq_false_iff] at noGap
    have notColon : c ≠ ':' := ne_of_isNameChar named.1 _ (by decide)
    rw [List.cons_append, plainFrom]
    simp [noGap, Pending.flush, noMark, notColon, ih named.2]

theorem IsName.unbroken {key : String} (isName : IsName key) : ∀ c ∈ key.toList, isBreak c = false :=
  fun c member => (opensLine_of_isNameChar (isName.2.2 c member) [] c rfl).2.1

/-- Outside of brackets a name is a plain text. -/
theorem lexeme_name {s : Scanner} (named : isNameChar c = true) (inBlock : s.outerKeys = [])
    (rest : List Char) (here : s.cursor.rest = c :: rest) : s.lexeme c rest = s.plainText := by
  have other := ne_of_isNameChar named
  have noGap := not_isGap_of_isNameChar named
  have noMark := not_atAnyDocumentMark_of_isNameChar named s.cursor.mark rest
  rw [Cursor.atAnyDocumentMark, Bool.or_eq_false_iff, ← here] at noMark
  simp only [specialChars, Scanner.indicators, List.cons_append, List.forall_mem_cons,
    List.nil_append] at other
  simp [Scanner.lexeme, Scanner.beginsPlain, Scanner.inFlow, inBlock, noMark, noGap, Scanner.indicators,
    other]

end Names

namespace Scanner

variable {s next : Scanner} {mark : Mark} {rest tail : List Char} {indent : Int} {outer : List Int}
  {lexemes : List Lexeme} {read : List Kind} {key : String}

/-- The key that a name at the start of a line may be; it must be one in the column of its block. -/
def keyAt (indent : Int) (lexemes : List Lexeme) (mark : Mark) : PossibleKey :=
  ⟨decide (indent = mark.column), lexemes.length, mark⟩

/-- The scanner in front of the colon behind a name. -/
def beforeColon (indent : Int) (outer : List Int) (lexemes : List Lexeme) (mark : Mark) (key : String)
    (rest : List Char) : Scanner :=
  ⟨⟨mark.after key.toList, ':' :: rest⟩, indent, outer, some (keyAt indent lexemes mark), [], false,
    ⟨.scalar true key, mark, mark.after key.toList⟩ :: lexemes⟩

theorem step_name (isName : IsName key) (gap : gapNext rest = true) (deep : indent ≤ mark.column)
    (atLine : s.AtLine ⟨mark, key.toList ++ ':' :: rest⟩ indent outer read) :
    ∃ lexemes, kinds lexemes = read ∧ s.Step (beforeColon indent outer lexemes mark key rest) := by
  obtain ⟨some, -, chars⟩ := isName
  obtain ⟨t, lexemes, settles, here, told, closed⟩ := atLine
  have text : plainFrom false (indent + 1) [] .none mark (key.toList ++ ':' :: rest) =
      Option.some ⟨key.toList, ⟨mark.after key.toList, ':' :: rest⟩, false⟩ := plainFrom_name chars gap
  obtain ⟨c, cs, same⟩ := List.exists_cons_of_ne_nil some
  refine ⟨lexemes, told, t, c, cs ++ ':' :: rest, settles, by rw [here, same]; rfl, ?_, ?_⟩
  · rw [here, closed, closeBlocks_of_le deep, lexeme_name (chars c (same ▸ List.mem_cons_self)) rfl]
    · simp [plainText, saveKey, dropKey, inFlow, text, beforeColon, keyAt, Scanner.scalar, allow, push,
        Scanner.mark, Cursor.column]
      exact decide_eq_decide.mpr Iff.rfl
    · rw [same]
      rfl
  · simp [beforeColon]

/-- The block of a mapping is opened by its first key. -/
def outerOf (indent : Int) (outer : List Int) (column : Nat) : List Int :=
  if indent < column then indent :: outer else outer

def opening (indent : Int) (column : Nat) : List Kind :=
  if indent < column then [.blockMappingStart] else []

/-- The lexemes that a key makes, behind the one that opens its block. -/
def keyLexemes (indent : Int) (lexemes : List Lexeme) (mark : Mark) (key : String) : List Lexeme :=
  ⟨.value, mark.after key.toList, (mark.after key.toList).advance ':'⟩ ::
    ⟨.scalar true key, mark, mark.after key.toList⟩ :: ⟨.key, mark, mark⟩ ::
      ((if indent < mark.column then [⟨.blockMappingStart, mark, mark⟩] else []) ++ lexemes)

theorem kinds_keyLexemes (indent : Int) (lexemes : List Lexeme) (mark : Mark) (key : String) :
    kinds (keyLexemes indent lexemes mark key) =
      kinds lexemes ++ opening indent mark.column ++ [.key, .scalar true key, .value] := by
  unfold keyLexemes opening
  split <;> simp

theorem value_beforeColon (deep : indent ≤ mark.column) :
    (beforeColon indent outer lexemes mark key rest).value =
      some ⟨⟨(mark.after key.toList).advance ':', rest⟩, mark.column, outerOf indent outer mark.column, none,
        [], false, keyLexemes indent lexemes mark key⟩ := by
  have ahead : lexemes.length + 1 + 1 - lexemes.length = 2 := by omega
  by_cases first : indent < mark.column
  · simp [value, beforeColon, keyAt, insertAt, openBlock, inFlow, first, outerOf, keyLexemes, take, allow,
      push, Cursor.skip, Scanner.mark, ahead]
  · obtain rfl : indent = mark.column := by omega
    simp [value, beforeColon, keyAt, insertAt, openBlock, inFlow, outerOf, keyLexemes, take, allow, push,
      Cursor.skip, Scanner.mark]

theorem step_colon (isName : IsName key) (gap : gapNext rest = true) (deep : indent ≤ mark.column) :
    (beforeColon indent outer lexemes mark key rest).Step
      ⟨⟨(mark.after key.toList).advance ':', rest⟩, mark.column, outerOf indent outer mark.column, none, [],
        false, keyLexemes indent lexemes mark key⟩ := by
  obtain ⟨-, short, -⟩ := id isName
  have moved : mark.after key.toList = ⟨_, _, _⟩ := Mark.after_of_unbroken isName.unbroken
  have opens : OpensLine (':' :: rest) := by
    intro c first
    obtain rfl := Option.some.inj first
    decide
  have settles : (beforeColon indent outer lexemes mark key rest).Settles
      (beforeColon indent outer lexemes mark key rest) := by
    refine settles_near opens ?_ ?_ <;> rw [moved]
    · exact Nat.le_refl _
    · exact Nat.add_le_add_left short _
  have closed : (beforeColon indent outer lexemes mark key rest).closeBlocks (mark.after key.toList).column =
      beforeColon indent outer lexemes mark key rest := by
    refine closeBlocks_of_le ?_
    rw [moved]
    show indent ≤ ((mark.column + key.toList.length : Nat) : Int)
    omega
  have dispatch : (beforeColon indent outer lexemes mark key rest).lexeme ':' rest =
      (beforeColon indent outer lexemes mark key rest).value := by
    simp [lexeme, gap, beforeColon, Cursor.atDocumentMark, Cursor.startMark, Cursor.endMark, inFlow]
  have read := (congrArg (·.lexeme ':' rest) closed).trans (dispatch.trans (value_beforeColon deep))
  exact ⟨_, ':', rest, settles, rfl, read, Nat.le_refl _⟩

/-- Steps lead to the start of a line. -/
def Arrives (s : Scanner) (column : Nat) (rest : List Char) (indent : Int) (outer : List Int)
    (read : List Kind) : Prop :=
  ∃ next mark, s.Steps next ∧ mark.column = column ∧ next.AtLine ⟨mark, rest⟩ indent outer read

section Arrivals

variable {column indent : Nat} {allowed : Bool}

theorem Arrives.of_step {column : Nat} {indent : Int} (step : s.Step next)
    (arrives : next.Arrives column rest indent outer read) : s.Arrives column rest indent outer read := by
  obtain ⟨last, mark, steps, same, atLine⟩ := arrives
  exact ⟨last, mark, .head step steps, same, atLine⟩

theorem Arrives.trans {column column' : Nat} {rest' : List Char} {indent indent' : Int}
    {outer' : List Int} {read' : List Kind} (arrives : s.Arrives column rest indent outer read)
    (later : ∀ (next : Scanner) (mark : Mark), mark.column = column →
      next.AtLine ⟨mark, rest⟩ indent outer read → next.Arrives column' rest' indent' outer' read') :
    s.Arrives column' rest' indent' outer' read' := by
  obtain ⟨next, mark, steps, here, atLine⟩ := arrives
  obtain ⟨last, mark', steps', there, atLine'⟩ := later next mark here atLine
  exact ⟨last, mark', steps.trans steps', there, atLine'⟩

theorem Arrives.of_steps {column : Nat} {indent : Int} (arrives : next.Arrives column rest indent outer read)
    (steps : s.Steps next) : s.Arrives column rest indent outer read := by
  obtain ⟨last, mark, later, here, atLine⟩ := arrives
  exact ⟨last, mark, steps.trans later, here, atLine⟩

theorem arrives_of_atLine {indent : Int} (atLine : s.AtLine ⟨mark, rest⟩ indent outer read) :
    s.Arrives mark.column rest indent outer read :=
  ⟨s, mark, .refl, rfl, atLine⟩

theorem arrives_feed {indent : Int} (opens : OpensLine rest) (told : kinds lexemes = read) :
    Arrives ⟨⟨mark, '\n' :: (List.replicate column ' ' ++ rest)⟩, indent, outer, none, [], allowed, lexemes⟩
      column rest indent outer read := by
  subst told
  refine ⟨_, _, .refl, ?_, atLine_feed column opens fun _ found => nomatch found⟩
  rw [Mark.after_cons, Mark.advance_of_isBreak rfl, Mark.after_spaces]
  exact Nat.zero_add _

theorem arrives_text (value : String) (deep : indent ≤ mark.column) (shallow : column ≤ indent)
    (opens : OpensLine rest) :
    Arrives ⟨⟨mark, ' ' :: (endLine (Yaml.scalar (indent + indentStep) value) ++
        (List.replicate column ' ' ++ rest))⟩, indent, outer, none, [], allowed, lexemes⟩
      column rest indent outer (kinds lexemes ++ [scalarKind value]) := by
  have deeper : indent < (mark.advance ' ').column := Nat.lt_succ_of_le deep
  obtain ⟨next, step, atLine⟩ := step_takesLine (opensLine_scalar _ value _) deep
    (takesLine_scalar value deeper shallow opens)
  exact ⟨next, _, .single step, column_after_endLine _ _ _, atLine⟩

theorem arrives_word {text : String} (plain : plainAllowed text.toList = true) (some : text.toList ≠ [])
    (deep : indent ≤ mark.column) (shallow : column ≤ indent) (opens : OpensLine rest) :
    Arrives ⟨⟨mark, ' ' :: (endLine text.toList ++ (List.replicate column ' ' ++ rest))⟩, indent, outer,
        none, [], allowed, lexemes⟩ column rest indent outer (kinds lexemes ++ [.scalar true text]) := by
  have deeper : indent < (mark.advance ' ').column := Nat.lt_succ_of_le deep
  have opensText : OpensLine (endLine text.toList ++ (List.replicate column ' ' ++ rest)) := by
    rw [endLine_eq, List.append_assoc]
    exact opensLine_plain plain some _
  obtain ⟨next, step, atLine⟩ :=
    step_takesLine opensText deep (takesLine_word plain some deeper shallow opens)
  exact ⟨next, _, .single step, column_after_endLine _ _ _, atLine⟩

/-- The scanner between two brackets. -/
def bracketed (indent : Int) (outer : List Int) (lexemes : List Lexeme) (mark : Mark) (rest : List Char) :
    Scanner :=
  ⟨⟨mark.advance '[', ']' :: rest⟩, indent, outer, none, [none], true,
    ⟨.flowSequenceStart, mark, mark.advance '['⟩ :: lexemes⟩

theorem step_bracket (deep : indent ≤ mark.column) :
    Step ⟨⟨mark, ' ' :: '[' :: ']' :: rest⟩, indent, outer, none, [], false, lexemes⟩
      (bracketed indent outer lexemes (mark.advance ' ') rest) := by
  have opens : OpensLine ('[' :: ']' :: rest) := by simp [OpensLine, isBlank, isBreak, isOrderMark]
  have inside : (indent : Int) ≤ ((mark.advance ' ').column : Nat) := by
    show (indent : Int) ≤ ((mark.column + 1 : Nat) : Int)
    omega
  refine ⟨_, '[', ']' :: rest, settles_spaces 1 opens (by simp [IsPast]), rfl,
    (congrArg (·.lexeme '[' (']' :: rest)) (closeBlocks_of_le inside)).trans ?_, Nat.le_refl _⟩
  simp [lexeme, Cursor.atDocumentMark, Cursor.startMark, Cursor.endMark, openFlow, saveKey, bracketed, take,
    push, allow, Cursor.skip, Scanner.mark]

theorem step_closing (indent : Int) (outer : List Int) (lexemes : List Lexeme) (mark : Mark)
    (rest : List Char) : (bracketed indent outer lexemes mark rest).Step
      ⟨⟨mark.after ['[', ']'], rest⟩, indent, outer, none, [], false,
        ⟨.flowSequenceEnd, mark.advance '[', mark.after ['[', ']']⟩ ::
          ⟨.flowSequenceStart, mark, mark.advance '['⟩ :: lexemes⟩ := by
  have settled : (bracketed indent outer lexemes mark rest).Settles
      (bracketed indent outer lexemes mark rest) := by
    have nothing : ((⟨mark.advance '[', ']' :: rest⟩ : Cursor).skipOrderMark.skipWhile
        fun c => c = ' ' || c = '\t').skipComment = ⟨mark.advance '[', ']' :: rest⟩ :=
      skipGap_spaces rfl (fun _ blank => blank) 0 (by simp [isBlank, isOrderMark])
    refine ⟨?_, Nat.le_refl _⟩
    simp [skipGaps, bracketed, inFlow, nothing, Cursor.next?, isBreak, dropStale]
  refine ⟨_, ']', rest, settled, rfl, ?_, Nat.le_refl _⟩
  simp [bracketed, closeBlocks, inFlow, lexeme, Cursor.atDocumentMark, Cursor.startMark, Cursor.endMark,
    closeFlow, dropKey, take, push, allow, Cursor.skip, Scanner.mark]

theorem arrives_nothing (deep : indent ≤ mark.column) (opens : OpensLine rest) :
    Arrives ⟨⟨mark, ' ' :: '[' :: ']' :: '\n' :: (List.replicate column ' ' ++ rest)⟩, indent, outer, none,
      [], false, lexemes⟩ column rest indent outer
        (kinds lexemes ++ [.flowSequenceStart, .flowSequenceEnd]) := by
  refine .of_step (step_bracket deep) (.of_step (step_closing _ _ _ _ _) ?_)
  exact arrives_feed opens (by simp)

theorem step_dash (atIndent : mark.column = indent)
    (atLine : s.AtLine ⟨mark, '-' :: ' ' :: rest⟩ indent outer read) :
    ∃ lexemes, kinds lexemes = read ++ [.blockEntry] ∧
      s.Step ⟨⟨mark.advance '-', ' ' :: rest⟩, indent, outer, none, [], true, lexemes⟩ := by
  obtain ⟨t, lexemes, settles, here, told, closed⟩ := atLine
  refine ⟨⟨.blockEntry, mark, mark.advance '-'⟩ :: lexemes, by simp [told], t, '-', ' ' :: rest, settles,
    by rw [here], ?_, Nat.le_refl _⟩
  rw [here, closed, closeBlocks_of_le (by simp [Cursor.column, atIndent])]
  simp [lexeme, Cursor.atDocumentMark, Cursor.startMark, Cursor.endMark, gapNext, isGap, isBlank, blockEntry,
    openAt, openBlock, inFlow, dropKey, take, push, allow, Cursor.skip, Scanner.mark, atIndent, Cursor.column]

/-- An item behind the spaces in front of its dash. -/
def itemLine (indent : Nat) (item : String) : List Char :=
  '-' :: ' ' :: endLine (Yaml.scalar (indent + indentStep) item)

theorem endLine_item (indent : Nat) (item : String) :
    endLine (List.replicate indent ' ' ++ "- ".toList ++ Yaml.scalar (indent + indentStep) item) =
      List.replicate indent ' ' ++ itemLine indent item := by
  have inLine : ∀ c ∈ List.replicate indent ' ' ++ "- ".toList, isBreak c = false := by
    intro c member
    rcases List.mem_append.mp member with space | dash
    · rw [List.eq_of_mem_replicate space]
      rfl
    · have unbroken : "- ".toList.all (fun c => !isBreak c) = true := by decide
      simpa using List.all_eq_true.mp unbroken c dash
  rw [endLine_append inLine, List.append_assoc]
  rfl

theorem opensLine_dash (rest : List Char) : OpensLine ('-' :: rest) := by
  simp [OpensLine, isBlank, isBreak, isOrderMark]

theorem arrives_item (shallow : column ≤ indent) (opens : OpensLine rest) (item : String)
    (atIndent : mark.column = indent)
    (atLine : s.AtLine ⟨mark, itemLine indent item ++ (List.replicate column ' ' ++ rest)⟩ indent outer
      read) : s.Arrives column rest indent outer (read ++ [.blockEntry, scalarKind item]) := by
  obtain ⟨lexemes, told, step⟩ := step_dash atIndent atLine
  have deep : indent ≤ (mark.advance '-').column := by
    show indent ≤ mark.column + 1
    omega
  have both : read ++ [.blockEntry, scalarKind item] = kinds lexemes ++ [scalarKind item] := by
    rw [told, List.append_assoc]
    rfl
  rw [both]
  exact .of_step step (arrives_text item deep shallow opens)

/-- The induction is on the items behind the first one. -/
theorem arrives_items (shallow : column ≤ indent) (opens : OpensLine rest) (first : String)
    (items : List String) (atIndent : mark.column = indent)
    (atLine : s.AtLine ⟨mark, itemLine indent first ++
      (items.flatMap (fun item => List.replicate indent ' ' ++ itemLine indent item) ++
        (List.replicate column ' ' ++ rest))⟩ indent outer read) :
    s.Arrives column rest indent outer
      (read ++ (first :: items).flatMap fun item => [.blockEntry, scalarKind item]) := by
  induction items generalizing s mark read first with
  | nil => simpa using arrives_item shallow opens first atIndent atLine
  | cons second items ih =>
    rw [List.flatMap_cons, List.append_assoc, List.append_assoc] at atLine
    refine (arrives_item (Nat.le_refl _) (opensLine_dash _) first atIndent atLine).trans
      fun next mark here atLine => ?_
    simpa using ih second here atLine

/-- A block that the line at hand closes counts as closed. -/
theorem AtLine.close {inner outside : Int} (shallow : (mark.column : Int) < inner)
    (atLine : s.AtLine ⟨mark, rest⟩ inner (outside :: outer) read) :
    s.AtLine ⟨mark, rest⟩ outside outer (read ++ [.blockEnd]) := by
  obtain ⟨t, lexemes, settles, here, told, closed⟩ := atLine
  refine ⟨t, ⟨.blockEnd, mark, mark⟩ :: lexemes, settles, here, by simp [told], closed.trans ?_⟩
  exact if_pos shallow

/-- A key is read up to the colon behind it. -/
theorem arrives_key {indent : Int} (isName : IsName key) (gap : gapNext rest = true)
    (deep : indent ≤ mark.column)
    (atLine : s.AtLine ⟨mark, key.toList ++ ':' :: rest⟩ indent outer read) :
    ∃ lexemes, kinds lexemes = read ++ opening indent mark.column ++ [.key, .scalar true key, .value] ∧
      s.Steps ⟨⟨(mark.after key.toList).advance ':', rest⟩, mark.column, outerOf indent outer mark.column,
        none, [], false, lexemes⟩ := by
  obtain ⟨lexemes, told, first⟩ := step_name isName gap deep atLine
  refine ⟨keyLexemes indent lexemes mark key, ?_, .tail (.single first) (step_colon isName gap deep)⟩
  rw [kinds_keyLexemes, told]

end Arrivals

end Scanner

section Entries

/-- The first line of an entry behind its indentation, and its further lines. -/
def entryLine (indent : Nat) (key : String) (block : Block) : List Char :=
  key.toList ++ ':' :: block.written indent

/-- What is written for entries behind the indentation of the first. -/
def entriesBody (indent : Nat) : List (String × Block) → List Char
  | [] => []
  | (key, block) :: rest => entryLine indent key block ++ writtenEntries indent rest

theorem writtenEntries_eq (indent : Nat) {entries : List (String × Block)} (some : entries ≠ []) :
    writtenEntries indent entries = List.replicate indent ' ' ++ entriesBody indent entries := by
  obtain ⟨⟨key, block⟩, rest, rfl⟩ := List.exists_cons_of_ne_nil some
  simp [writtenEntries, entriesBody, entryLine]

theorem gapNext_written (indent : Nat) (block : Block) (more : List Char) :
    gapNext (block.written indent ++ more) = true := by
  cases block with
  | word text => rw [Block.written, endLine_cons rfl]; rfl
  | text value => rw [Block.written, endLine_cons rfl]; rfl
  | list items => cases items <;> rfl
  | entries blocks => rfl

theorem opensLine_entriesBody (indent : Nat) {entries : List (String × Block)} (some : entries ≠ [])
    (legible : LegibleEntries entries) (more : List Char) :
    OpensLine (entriesBody indent entries ++ more) := by
  obtain ⟨⟨key, block⟩, rest, rfl⟩ := List.exists_cons_of_ne_nil some
  obtain ⟨⟨nonempty, -, chars⟩, -, -⟩ := legible
  rw [entriesBody, entryLine]
  obtain ⟨c, cs, same⟩ := List.exists_cons_of_ne_nil nonempty
  rw [same]
  exact opensLine_of_isNameChar (chars c (same ▸ List.mem_cons_self)) _

end Entries

namespace Scanner

mutual

/-- What stands behind a colon is read up to the start of the line behind it. -/
theorem arrives_block : ∀ (block : Block), block.Legible → ∀ {mark : Mark} {rest : List Char}
    {column indent : Nat} {outer : List Int} {lexemes : List Lexeme}, indent ≤ mark.column →
    column ≤ indent → OpensLine rest →
    Arrives ⟨⟨mark, block.written indent ++ (List.replicate column ' ' ++ rest)⟩, indent, outer, none, [],
      false, lexemes⟩ column rest indent outer (kinds lexemes ++ block.kinds)
  | .word text, legible, _, _, _, _, _, _, deep, shallow, opens => by
    rw [Block.written, endLine_cons rfl]
    exact arrives_word legible.1 legible.2 deep shallow opens
  | .text value, _, _, _, _, _, _, _, deep, shallow, opens => by
    rw [Block.written, endLine_cons rfl]
    exact arrives_text value deep shallow opens
  | .list [], _, _, _, _, _, _, _, deep, _, opens => arrives_nothing deep opens
  | .list (first :: items), _, mark, rest, column, indent, outer, lexemes, _, shallow, opens => by
    simp only [Block.written, endLine_item, List.flatMap_cons]
    simp only [List.cons_append, List.append_assoc]
    refine (arrives_feed (opensLine_dash _) rfl).trans fun next mark atIndent atLine => ?_
    exact arrives_items shallow opens first items atIndent atLine
  | .entries blocks, legible, mark, rest, column, indent, outer, lexemes, _, shallow, opens => by
    obtain ⟨nonempty, legible⟩ := legible
    rw [Block.written, writtenEntries_eq _ nonempty, List.cons_append, List.append_assoc]
    refine (arrives_feed (opensLine_entriesBody _ nonempty legible _) rfl).trans
      fun next mark atIndent atLine => ?_
    rw [← atIndent] at atLine
    have deeper : (indent : Int) < mark.column := by
      rw [atIndent, indentStep]
      omega
    have arrives := arrives_entries blocks legible nonempty (Int.le_of_lt deeper) (by omega) opens atLine
    rw [outerOf, if_pos deeper, opening, if_pos deeper] at arrives
    refine arrives.trans fun next last here ended => ?_
    have shallower : (last.column : Int) < mark.column := by omega
    subst here
    simpa [Block.kinds] using arrives_of_atLine (ended.close shallower)

/-- Entries in one column; the first of them may open the block. -/
theorem arrives_entries : ∀ (entries : List (String × Block)), LegibleEntries entries → entries ≠ [] →
    ∀ {s : Scanner} {mark : Mark} {rest : List Char} {column : Nat} {indent : Int} {outer : List Int}
    {read : List Kind}, indent ≤ mark.column → column ≤ mark.column → OpensLine rest →
    s.AtLine ⟨mark, entriesBody mark.column entries ++ (List.replicate column ' ' ++ rest)⟩ indent outer
      read →
    s.Arrives column rest mark.column (outerOf indent outer mark.column)
      (read ++ opening indent mark.column ++ entriesKinds entries)
  | [], _, nonempty, _, _, _, _, _, _, _, _, _, _, _ => absurd rfl nonempty
  | (key, block) :: more, legible, _, s, mark, rest, column, indent, outer, read, deep, shallow, opens,
      atLine => by
    obtain ⟨isName, legibleBlock, legibleMore⟩ := legible
    rw [entriesBody, entryLine, List.append_assoc, List.append_assoc, List.cons_append] at atLine
    obtain ⟨lexemes, told, steps⟩ := arrives_key isName (gapNext_written _ _ _) deep atLine
    have inside : mark.column ≤ ((mark.after key.toList).advance ':').column := by
      rw [Mark.after_of_unbroken isName.unbroken]
      exact Nat.le_succ_of_le (Nat.le_add_right _ _)
    have whole : read ++ opening indent mark.column ++ entriesKinds ((key, block) :: more) =
        kinds lexemes ++ block.kinds ++ entriesKinds more := by
      simp [told, entriesKinds]
    rw [whole]
    rcases eq_or_ne more [] with rfl | nonempty
    · rw [entriesKinds, List.append_nil]
      exact (arrives_block block legibleBlock inside shallow opens).of_steps steps
    · rw [writtenEntries_eq _ nonempty, List.append_assoc] at steps
      have opensMore := opensLine_entriesBody mark.column nonempty legibleMore
        (List.replicate column ' ' ++ rest)
      refine ((arrives_block block legibleBlock inside (Nat.le_refl _) opensMore).of_steps steps).trans
        fun next last here atLine => ?_
      rw [← here] at atLine shallow ⊢
      simpa [outerOf, opening] using
        arrives_entries more legibleMore nonempty (Int.le_refl _) shallow opens atLine

end

end Scanner

end Colorization.Yaml
