import Colorization.Proofs.Yaml.DoubleQuoted
import Colorization.Proofs.Yaml.Literal
import Colorization.Proofs.Yaml.Scanner

/-! A text behind a key or a dash is one lexeme, whatever its style. -/
namespace Colorization.Yaml

namespace Scanner

variable {mark next : Mark} {rest tail cs : List Char} {indent : Nat} {outer : List Int} {allowed : Bool}
  {lexemes : List Lexeme} {c : Char}

theorem closeBlocks_of_le {s : Scanner} {column : Int} (deep : s.indent ≤ column) :
    s.closeBlocks column = s := by
  unfold closeBlocks
  split
  · rfl
  · rw [closeBlocks.close.eq_def]
    split
    · rfl
    · rw [if_neg (by omega)]

/-- The key that a text in a line may be. -/
def possibleKey (allowed : Bool) (lexemes : List Lexeme) (mark : Mark) : Option PossibleKey :=
  if allowed then some ⟨false, lexemes.length, mark⟩ else none

theorem isPast_possibleKey (earlier : mark.line < next.line) :
    IsPast (possibleKey allowed lexemes mark) next := by
  intro key found
  unfold possibleKey at found
  split at found
  · obtain rfl := Option.some.inj found
    exact ⟨rfl, earlier⟩
  · cases found

theorem saveKey_inside (deep : indent < mark.column) :
    saveKey ⟨⟨mark, rest⟩, indent, outer, none, [], allowed, lexemes⟩ =
      some ⟨⟨mark, rest⟩, indent, outer, possibleKey allowed lexemes mark, [], allowed, lexemes⟩ := by
  have deeper : ¬ (indent : Int) = mark.column := by omega
  cases allowed
  · rfl
  · simp [saveKey, dropKey, possibleKey, Cursor.column, Scanner.mark, inFlow, deeper]

section Dispatch

/-- What may come first in a plain text. -/
theorem plainAllowed_cons (allowed : plainAllowed (c :: cs) = true) (tail : List Char) :
    c ∉ leadingIndicators ∧ isGap c = false ∧
      (c = '-' ∨ c = '?' ∨ c = ':' → gapNext (cs ++ '\n' :: tail) = false) := by
  simp only [plainAllowed, edge, Bool.and_eq_true, Bool.not_eq_true', Bool.or_eq_false_iff,
    List.all_eq_true, List.any_eq_false, Bool.not_eq_true] at allowed
  obtain ⟨⟨⟨⟨⟨-, first⟩, -⟩, printable⟩, inLine⟩, notSpace, -⟩ := allowed
  simp only [firstIndicator, Bool.or_eq_false_iff] at first
  have notSpace : c ≠ ' ' := by simpa [isSpace] using notSpace
  refine ⟨by simpa using first.1, ?_, fun mark => ?_⟩
  · rw [isGap_of_isPrintable (printable c List.mem_cons_self), inLine c List.mem_cons_self]
    simp [notSpace]
  · have indicator : (decide (c = '?') || decide (c = ':') || decide (c = '-')) = true := by
      rcases mark with rfl | rfl | rfl <;> rfl
    rw [indicator, Bool.true_and] at first
    cases cs with
    | nil => cases first.2
    | cons d cs => simpa [gapNext] using first.2

theorem beginsPlain_of_plainAllowed (allowed : plainAllowed (c :: cs) = true) (tail : List Char) :
    beginsPlain false c (cs ++ '\n' :: tail) = true := by
  obtain ⟨notLeading, notGap, goesOn⟩ := plainAllowed_cons allowed tail
  by_cases mark : c = '-' ∨ c = '?' ∨ c = ':'
  · have noGap := goesOn mark
    rcases mark with rfl | rfl | rfl
    · have notBlank : (cs ++ '\n' :: tail).head?.any isBlank = false := by
        cases cs with
        | nil => rfl
        | cons d cs => simp_all [gapNext, isGap]
      rw [beginsPlain, notBlank]
      simp
    · simp [beginsPlain, noGap]
    · simp [beginsPlain, noGap]
  · simp only [not_or] at mark
    simp only [leadingIndicators, List.mem_cons, not_or] at notLeading
    simp [beginsPlain, notGap, indicators, mark, notLeading]

theorem lexeme_plain (plain : plainAllowed (c :: cs) = true) (inside : 0 < mark.column) :
    lexeme ⟨⟨mark, rest⟩, indent, outer, none, [], allowed, lexemes⟩ c (cs ++ '\n' :: tail) =
      plainText ⟨⟨mark, rest⟩, indent, outer, none, [], allowed, lexemes⟩ := by
  have begins := beginsPlain_of_plainAllowed plain tail
  have notStart : mark.column ≠ 0 := by omega
  obtain ⟨notLeading, -, goesOn⟩ := plainAllowed_cons plain tail
  simp only [leadingIndicators, List.mem_cons, not_or] at notLeading
  have noEntry : (decide (c = '-') && gapNext (cs ++ '\n' :: tail)) = false := by
    by_cases dash : c = '-' <;> simp [dash, goesOn]
  have noKey : (decide (c = '?') && gapNext (cs ++ '\n' :: tail)) = false := by
    by_cases mark : c = '?' <;> simp [mark, goesOn]
  have noValue : (decide (c = ':') && gapNext (cs ++ '\n' :: tail)) = false := by
    by_cases colon : c = ':' <;> simp [colon, goesOn]
  simp [lexeme, Cursor.atDocumentMark, Cursor.column, notStart, inFlow, notLeading, noEntry, noKey, noValue,
    begins]

theorem lexeme_singleQuote (inside : 0 < mark.column) :
    lexeme ⟨⟨mark, cs⟩, indent, outer, none, [], allowed, lexemes⟩ '\x27' rest =
      quotedText ⟨⟨mark, cs⟩, indent, outer, none, [], allowed, lexemes⟩ (singleQuotedFrom [] .none) := by
  have notStart : mark.column ≠ 0 := by omega
  simp [lexeme, Cursor.atDocumentMark, Cursor.column, notStart]

theorem lexeme_doubleQuote (inside : 0 < mark.column) :
    lexeme ⟨⟨mark, cs⟩, indent, outer, none, [], allowed, lexemes⟩ '"' rest =
      quotedText ⟨⟨mark, cs⟩, indent, outer, none, [], allowed, lexemes⟩
        (doubleQuotedFrom [] .none .outside) := by
  have notStart : mark.column ≠ 0 := by omega
  simp [lexeme, Cursor.atDocumentMark, Cursor.column, notStart]

theorem lexeme_bar (inside : 0 < mark.column) :
    lexeme ⟨⟨mark, cs⟩, indent, outer, none, [], allowed, lexemes⟩ '|' rest =
      blockText ⟨⟨mark, cs⟩, indent, outer, none, [], allowed, lexemes⟩ true := by
  have notStart : mark.column ≠ 0 := by omega
  simp [lexeme, Cursor.atDocumentMark, Cursor.column, notStart, inFlow]

end Dispatch

section Styles

variable {column : Nat}

/-- The lexeme at hand takes what is left of its line, and more lines if it has them. -/
def TakesLine (s : Scanner) (kind : Kind) (cursor : Cursor) : Prop :=
  ∃ c rest next, s.cursor.rest = c :: rest ∧ s.lexeme c rest = some next ∧
    next.cursor.rest.length ≤ rest.length ∧
    next.AtLine cursor s.indent s.outerIndents (kinds s.lexemes ++ [kind])

/-- The scanner behind a scalar that may be a key. -/
def behind (indent : Nat) (outer : List Int) (allowed : Bool) (lexemes : List Lexeme) (mark : Mark)
    (plain : Bool) (scanned : Scanned) : Scanner :=
  ⟨scanned.cursor, indent, outer, possibleKey allowed lexemes mark, [], scanned.broken,
    ⟨.scalar plain (String.ofList scanned.text), mark, scanned.cursor.mark⟩ :: lexemes⟩

theorem plainText_inside {scanned : Scanned} (deep : indent < mark.column)
    (read : plainFrom false (indent + 1) [] .none mark rest = some scanned) :
    plainText ⟨⟨mark, rest⟩, indent, outer, none, [], allowed, lexemes⟩ =
      some (behind indent outer allowed lexemes mark true scanned) := by
  rw [plainText, saveKey_inside deep, Option.bind_eq_bind, Option.bind_some]
  simp only [inFlow, Scanner.mark, List.isEmpty_nil, Bool.not_true, read]
  rfl

theorem quotedText_inside {scan : Mark → List Char → Option Scanned} {scanned : Scanned}
    (deep : indent < mark.column) (read : scan (mark.advance c) rest = some scanned)
    (inLine : scanned.broken = false) :
    quotedText ⟨⟨mark, c :: rest⟩, indent, outer, none, [], allowed, lexemes⟩ scan =
      some (behind indent outer allowed lexemes mark false scanned) := by
  rw [quotedText, saveKey_inside deep, Option.bind_eq_bind, Option.bind_some]
  simp only [Cursor.skip, read, behind, inLine]
  rfl

theorem atLine_behind_here {plain : Bool} (opens : OpensLine rest) (later : mark.line < next.line)
    (cs : List Char) : (behind indent outer allowed lexemes mark plain ⟨cs, ⟨next, rest⟩, true⟩).AtLine
      ⟨next, rest⟩ indent outer (kinds lexemes ++ [.scalar plain (String.ofList cs)]) := by
  rw [← kinds_cons ⟨.scalar plain (String.ofList cs), mark, next⟩]
  exact atLine_here opens (isPast_possibleKey later)

theorem atLine_behind_feed {plain : Bool} (opens : OpensLine rest) (later : mark.line ≤ next.line)
    (cs : List Char) : (behind indent outer allowed lexemes mark plain
        ⟨cs, ⟨next, '\n' :: (List.replicate column ' ' ++ rest)⟩, false⟩).AtLine
      ⟨next.after ('\n' :: List.replicate column ' '), rest⟩ indent outer
      (kinds lexemes ++ [.scalar plain (String.ofList cs)]) := by
  have past : next.line < (next.after ('\n' :: List.replicate column ' ')).line :=
    Mark.line_lt_after next List.mem_cons_self rfl
  rw [← kinds_cons ⟨.scalar plain (String.ofList cs), mark, next⟩]
  exact atLine_feed column opens (isPast_possibleKey (Nat.lt_of_le_of_lt later past))

theorem takesLine_plain (plain : plainAllowed cs = true) (some : cs ≠ []) (deep : indent < mark.column)
    (shallow : column ≤ indent) (opens : OpensLine rest) :
    TakesLine ⟨⟨mark, cs ++ '\n' :: (List.replicate column ' ' ++ rest)⟩, indent, outer, none, [], allowed,
        lexemes⟩ (.scalar true (String.ofList cs))
      ⟨mark.after (cs ++ '\n' :: List.replicate column ' '), rest⟩ := by
  obtain ⟨c, cs, rfl⟩ := List.exists_cons_of_ne_nil some
  have inside : 0 < mark.column := by omega
  have deeper : (indent : Int) + 1 ≤ mark.column := by omega
  have next : (column : Int) < indent + 1 := by omega
  have past : mark.line < (mark.after (c :: cs ++ '\n' :: List.replicate column ' ')).line :=
    Mark.line_lt_after mark (List.mem_append_right _ List.mem_cons_self) rfl
  refine ⟨c, _, _, rfl, (lexeme_plain plain inside).trans
    (plainText_inside deep (plainFrom_line plain deeper inside opens next)), ?_, ?_⟩
  · simp [behind]
    omega
  · exact atLine_behind_here opens past (c :: cs)

/-- A text in quotes of either kind, from its first mark on. -/
theorem takesLine_quoted {scan : Mark → List Char → Option Scanned} {inner : List Char}
    (dispatch : ∀ (cs rest : List Char),
      lexeme ⟨⟨mark, cs⟩, indent, outer, none, [], allowed, lexemes⟩ c rest =
        quotedText ⟨⟨mark, cs⟩, indent, outer, none, [], allowed, lexemes⟩ scan)
    (read : scan (mark.advance c) (inner ++ '\n' :: (List.replicate column ' ' ++ rest)) =
      some ⟨cs, ⟨(mark.advance c).after inner, '\n' :: (List.replicate column ' ' ++ rest)⟩, false⟩)
    (deep : indent < mark.column) (opens : OpensLine rest) :
    TakesLine ⟨⟨mark, c :: inner ++ '\n' :: (List.replicate column ' ' ++ rest)⟩, indent, outer, none, [],
        allowed, lexemes⟩ (.scalar false (String.ofList cs))
      ⟨mark.after (c :: inner ++ '\n' :: List.replicate column ' '), rest⟩ := by
  refine ⟨c, _, _, rfl, (dispatch _ _).trans (quotedText_inside deep read rfl), ?_, ?_⟩
  · simp [behind]
  · rw [Mark.after_append]
    exact atLine_behind_feed opens (Nat.le_trans (Mark.line_le_advance mark c) (Mark.line_le_after _ _)) cs

theorem takesLine_singleQuoted (quotable : singleQuotedAllowed cs = true) (unfed : '\n' ∉ cs)
    (deep : indent < mark.column) (opens : OpensLine rest) :
    TakesLine ⟨⟨mark, singleQuoted (indent + indentStep) cs ++ '\n' :: (List.replicate column ' ' ++ rest)⟩,
        indent, outer, none, [], allowed, lexemes⟩ (.scalar false (String.ofList cs))
      ⟨mark.after (singleQuoted (indent + indentStep) cs ++ '\n' :: List.replicate column ' '), rest⟩ :=
  takesLine_quoted (fun _ _ => lexeme_singleQuote (Nat.zero_lt_of_lt deep))
    (singleQuotedFrom_singleQuoted quotable unfed (Nat.succ_pos _) (Nat.succ_pos _) (by simp)) deep opens

theorem takesLine_doubleQuoted (cs : List Char) (deep : indent < mark.column) (opens : OpensLine rest) :
    TakesLine ⟨⟨mark, doubleQuoted cs ++ '\n' :: (List.replicate column ' ' ++ rest)⟩, indent, outer, none,
        [], allowed, lexemes⟩ (.scalar false (String.ofList cs))
      ⟨mark.after (doubleQuoted cs ++ '\n' :: List.replicate column ' '), rest⟩ :=
  takesLine_quoted (fun _ _ => lexeme_doubleQuote (Nat.zero_lt_of_lt deep))
    (doubleQuotedFrom_doubleQuoted (Nat.succ_pos _)) deep opens

theorem takesLine_literal (quotable : literalAllowed cs = true) (some : cs ≠ [])
    (deep : indent < mark.column) (shallow : column ≤ indent) (opens : OpensLine rest) :
    TakesLine ⟨⟨mark, literal (indent + indentStep) cs ++
        (lineEnd cs ++ (List.replicate column ' ' ++ rest))⟩, indent, outer, none, [], allowed, lexemes⟩
      (.scalar false (String.ofList cs))
      ⟨mark.after (literal (indent + indentStep) cs ++ (lineEnd cs ++ List.replicate column ' ')),
        rest⟩ := by
  have below : column < indent + indentStep :=
    Nat.lt_of_le_of_lt shallow (Nat.lt_add_of_pos_right Nat.two_pos)
  have later : mark.line < (mark.after (literal (indent + indentStep) cs ++
      (lineEnd cs ++ List.replicate column ' '))).line :=
    Mark.line_lt_after mark (List.mem_append_left _ (List.mem_cons_of_mem _
      (List.mem_append_right _ List.mem_cons_self))) rfl
  refine ⟨'|', (literal (indent + indentStep) cs).tail ++ (lineEnd cs ++ (List.replicate column ' ' ++ rest)),
    behind indent outer false lexemes mark false _, rfl,
    (lexeme_bar (Nat.zero_lt_of_lt deep)).trans ?_, ?_, atLine_behind_here opens later cs⟩
  · rw [blockText, dropKey, Option.bind_eq_bind, Option.bind_some, block?_literal quotable some below opens]
    rfl
  · simp only [behind, List.length_append]
    omega

end Styles

end Scanner

section Texts

variable {cs : List Char}

theorem endLine_eq (cs : List Char) : endLine cs = cs ++ lineEnd cs := by
  unfold endLine lineEnd
  split <;> simp

theorem indented_concat (indent : Nat) (fresh : Bool) (cs : List Char) (c : Char) :
    ∃ before, indented indent (fun c => [c]) fresh (cs ++ [c]) = before ++ [c] := by
  induction cs generalizing fresh with
  | nil =>
    rw [List.nil_append, indented]
    split
    · exact ⟨[], rfl⟩
    · exact ⟨_, List.append_nil _⟩
  | cons d cs ih =>
    rw [List.cons_append, indented]
    split
    · obtain ⟨before, same⟩ := ih true
      exact ⟨d :: before, by rw [same]; rfl⟩
    · obtain ⟨before, same⟩ := ih false
      exact ⟨_, by rw [same, ← List.append_assoc]⟩

theorem lineEnd_literal (some : cs ≠ []) (indent : Nat) : lineEnd (literal indent cs) = lineEnd cs := by
  obtain ⟨cs, last, rfl⟩ := List.eq_nil_or_concat' cs |>.resolve_left some
  obtain ⟨before, same⟩ := indented_concat indent true cs last
  rw [literal, same]
  simp [lineEnd, List.getLast?_cons]

theorem ne_nil_of_plain {value : String} (free : needsQuotes value = false) : value.toList ≠ [] := by
  intro empty
  obtain rfl : value = "" := String.toList_eq_nil_iff.mp empty
  cases free

theorem lineEnd_of_plain (plain : plainAllowed cs = true) (some : cs ≠ []) : lineEnd cs = ['\n'] := by
  simp only [plainAllowed, Bool.and_eq_true, Bool.not_eq_true', List.any_eq_false, Bool.not_eq_true] at plain
  obtain ⟨before, last, rfl⟩ := List.eq_nil_or_concat' cs |>.resolve_left some
  simp [lineEnd, plain.1.2 last (by simp)]

def Style.isPlain : Style → Bool
  | .plain => true
  | .singleQuoted | .doubleQuoted | .literal => false

/-- How a text is written follows from its style, which suits the text. -/
inductive Styled (value : String) : Style → Prop where
  | plain : needsQuotes value = false → plainAllowed value.toList = true → Styled value .plain
  | singleQuoted : '\n' ∉ value.toList → singleQuotedAllowed value.toList = true →
      Styled value .singleQuoted
  | doubleQuoted : Styled value .doubleQuoted
  | literal : '\n' ∈ value.toList → literalAllowed value.toList = true → Styled value .literal

theorem styled_quotedStyle {value : String} (unfed : '\n' ∉ value.toList) :
    Styled value (quotedStyle value.toList) := by
  unfold quotedStyle
  split
  next allowed => exact .singleQuoted unfed allowed
  next => exact .doubleQuoted

theorem styled_choose (value : String) : Styled value (Style.choose value) := by
  unfold Style.choose
  by_cases fed : '\n' ∈ value.toList
  · rw [if_pos (by simpa using fed)]
    split
    next allowed => exact .literal fed allowed
    next => exact .doubleQuoted
  · rw [if_neg (by simpa using fed)]
    split
    next => exact styled_quotedStyle fed
    next free =>
      split
      next allowed => exact .plain (by simpa using free) allowed
      next => exact styled_quotedStyle fed

end Texts

namespace Scanner

variable {mark : Mark} {rest : List Char} {indent column : Nat} {outer : List Int} {allowed : Bool}
  {lexemes : List Lexeme}

/-- The lexeme of a text. -/
def scalarKind (value : String) : Kind := .scalar (Style.choose value).isPlain value

theorem takesLine_word {text : String} (plain : plainAllowed text.toList = true) (some : text.toList ≠ [])
    (deep : indent < mark.column) (shallow : column ≤ indent) (opens : OpensLine rest) :
    TakesLine ⟨⟨mark, endLine text.toList ++ (List.replicate column ' ' ++ rest)⟩, indent, outer, none, [],
        allowed, lexemes⟩ (.scalar true text)
      ⟨mark.after (endLine text.toList ++ List.replicate column ' '), rest⟩ := by
  rw [endLine_eq, lineEnd_of_plain plain some]
  simpa only [List.append_assoc, List.singleton_append, String.ofList_toList] using
    takesLine_plain plain some deep shallow opens

/-- A written text takes its line. -/
theorem takesLine_scalar (value : String) (deep : indent < mark.column) (shallow : column ≤ indent)
    (opens : OpensLine rest) :
    TakesLine ⟨⟨mark, endLine (Yaml.scalar (indent + indentStep) value) ++
        (List.replicate column ' ' ++ rest)⟩, indent, outer, none, [], allowed, lexemes⟩
      (scalarKind value)
      ⟨mark.after (endLine (Yaml.scalar (indent + indentStep) value) ++ List.replicate column ' '),
        rest⟩ := by
  have styled := styled_choose value
  rw [scalarKind, Yaml.scalar]
  generalize Style.choose value = style at styled ⊢
  cases styled with
  | plain free plain => exact takesLine_word plain (ne_nil_of_plain free) deep shallow opens
  | singleQuoted unfed quotable =>
    have ended : lineEnd (Yaml.singleQuoted (indent + indentStep) value.toList) = ['\n'] := by
      simp [lineEnd, Yaml.singleQuoted, List.getLast?_cons, isBreak]
    simpa only [Style.isPlain, endLine_eq, ended, List.append_assoc, List.singleton_append,
      String.ofList_toList] using takesLine_singleQuoted quotable unfed deep opens
  | doubleQuoted =>
    have ended : lineEnd (Yaml.doubleQuoted value.toList) = ['\n'] := by
      simp [lineEnd, Yaml.doubleQuoted, List.getLast?_cons, isBreak]
    simpa only [Style.isPlain, endLine_eq, ended, List.append_assoc, List.singleton_append,
      String.ofList_toList] using takesLine_doubleQuoted value.toList deep opens
  | literal fed quotable =>
    have some := List.ne_nil_of_mem fed
    simpa only [Style.isPlain, endLine_eq, lineEnd_literal some, List.append_assoc,
      String.ofList_toList] using takesLine_literal quotable some deep shallow opens

theorem opensLine_plain {cs : List Char} (plain : plainAllowed cs = true) (some : cs ≠ [])
    (more : List Char) : OpensLine (cs ++ more) := by
  obtain ⟨c, cs, rfl⟩ := List.exists_cons_of_ne_nil some
  obtain ⟨notLeading, notGap, -⟩ := plainAllowed_cons plain []
  simp only [plainAllowed, Bool.and_eq_true, List.all_eq_true] at plain
  intro first same
  obtain rfl := Option.some.inj same
  rw [isGap, Bool.or_eq_false_iff, Bool.or_eq_false_iff] at notGap
  have notOrderMark : c ≠ '\uFEFF' :=
    ne_of_isPrintable (plain.1.1.2 c List.mem_cons_self) (by decide)
  refine ⟨notGap.1.1, notGap.1.2, ?_, by simpa [isOrderMark] using notOrderMark⟩
  rintro rfl
  exact notLeading (by decide)

theorem opensLine_scalar (indent : Nat) (value : String) (more : List Char) :
    OpensLine (endLine (Yaml.scalar indent value) ++ more) := by
  have styled := styled_choose value
  rw [endLine_eq, Yaml.scalar, List.append_assoc]
  generalize Style.choose value = style at styled ⊢
  cases styled with
  | plain free plain => exact opensLine_plain plain (ne_nil_of_plain free) _
  | singleQuoted => simp [OpensLine, Yaml.singleQuoted, isBlank, isBreak, isOrderMark]
  | doubleQuoted => simp [OpensLine, Yaml.doubleQuoted, isBlank, isBreak, isOrderMark]
  | literal => simp [OpensLine, Yaml.literal, isBlank, isBreak, isOrderMark]

/-- A space in front of what takes the line is passed over. -/
theorem step_takesLine {text : List Char} {kind : Kind} {cursor : Cursor} (opens : OpensLine text)
    (deep : indent ≤ mark.column)
    (taken : TakesLine ⟨⟨mark.advance ' ', text⟩, indent, outer, none, [], allowed, lexemes⟩ kind cursor) :
    ∃ next, Step ⟨⟨mark, ' ' :: text⟩, indent, outer, none, [], allowed, lexemes⟩ next ∧
      next.AtLine cursor indent outer (kinds lexemes ++ [kind]) := by
  obtain ⟨c, rest, next, here, read, short, atLine⟩ := taken
  have inside : (indent : Int) ≤ ((mark.advance ' ').column : Nat) := by
    show (indent : Int) ≤ ((mark.column + 1 : Nat) : Int)
    omega
  refine ⟨next, ⟨_, c, rest, settles_spaces 1 opens nofun, here, ?_, short⟩, atLine⟩
  exact (congrArg (·.lexeme c rest) (closeBlocks_of_le inside)).trans read

end Scanner

end Colorization.Yaml
