import Colorization.Proofs.Yaml.Plain
import Mathlib.Tactic.Ring

/-! A double-quoted text is read back: each of its characters is written as itself, by name or by the
digits of its code point. -/
namespace Colorization.Yaml

variable {before blanks cs rest tail : List Char} {mark : Mark} {c : Char}

section Digits

/-- The digit of a number below sixteen. -/
def hexDigit (n : Nat) : Char := (Nat.digitChar n).toUpper

theorem hexDigit?_hexDigit : ∀ n < 16, hexDigit? (hexDigit n) = some n := by decide

theorem hexDigit_printable :
    ∀ n < 16, isPrintable (hexDigit n) = true ∧ isBreak (hexDigit n) = false := by
  decide

theorem hexDigits_printable (width n : Nat) :
    ∀ d ∈ hexDigits width n, isPrintable d = true ∧ isBreak d = false := by
  intro d member
  obtain ⟨i, -, rfl⟩ := List.mem_map.mp member
  exact hexDigit_printable _ (Nat.mod_lt _ (by decide))

theorem hexDigits_succ (width n : Nat) :
    hexDigits (width + 1) n = hexDigit (n / 16 ^ width % 16) :: hexDigits width n := by
  rw [hexDigits, List.range_succ_eq_map, List.map_cons, List.map_map]
  refine congrArg₂ List.cons rfl (List.map_congr_left fun i _ => ?_)
  have shifted : width + 1 - 1 - (i + 1) = width - 1 - i := by omega
  rw [Function.comp_apply, shifted]

theorem codePoint?_toNat (c : Char) : codePoint? c.toNat = some c := by
  have valid : c.toNat.isValidChar := c.valid
  rw [codePoint?, dif_pos valid]
  rfl

attribute [local simp] doubleQuotedFrom

theorem doubleQuotedFrom_digit {n left value : Nat} (below : n < 16) :
    doubleQuotedFrom before .none (.digits (left + 2) value) mark (hexDigit n :: rest) =
      doubleQuotedFrom before .none (.digits (left + 1) (value * 16 + n)) (mark.advance (hexDigit n))
        rest := by
  simp [hexDigit?_hexDigit n below]

theorem doubleQuotedFrom_lastDigit {n value : Nat} (below : n < 16)
    (point : codePoint? (value * 16 + n) = some c) :
    doubleQuotedFrom before .none (.digits 1 value) mark (hexDigit n :: rest) =
      doubleQuotedFrom (c :: before) .none .outside (mark.advance (hexDigit n)) rest := by
  simp [hexDigit?_hexDigit n below, point]

/-- The induction is on the number of digits; `value` is what the ones before them stand for. -/
theorem doubleQuotedFrom_digits {n width value : Nat}
    (point : codePoint? (value * 16 ^ (width + 1) + n % 16 ^ (width + 1)) = some c) :
    doubleQuotedFrom before .none (.digits (width + 1) value) mark (hexDigits (width + 1) n ++ rest) =
      doubleQuotedFrom (c :: before) .none .outside (mark.after (hexDigits (width + 1) n)) rest := by
  have below : n / 16 ^ width % 16 < 16 := Nat.mod_lt _ (by decide)
  rw [hexDigits_succ, List.cons_append, Mark.after_cons]
  induction width generalizing value mark with
  | zero =>
    have point : codePoint? (value * 16 + n / 16 ^ 0 % 16) = some c := by simpa using point
    exact doubleQuotedFrom_lastDigit below point
  | succ width ih =>
    have sum : value * 16 ^ (width + 1 + 1) + n % 16 ^ (width + 1 + 1) =
        (value * 16 + n / 16 ^ (width + 1) % 16) * 16 ^ (width + 1) + n % 16 ^ (width + 1) := by
      rw [Nat.mod_pow_succ, Nat.pow_succ 16 (width + 1)]
      ring
    rw [sum] at point
    rw [doubleQuotedFrom_digit below, hexDigits_succ, List.cons_append,
      ih point (Nat.mod_lt _ (by decide)), Mark.after_cons]

end Digits

theorem namedEscape_read : ∀ escape ∈ namedEscapes,
    isBreak escape.2 = false ∧ escapes.find? (·.1 = escape.2) = some (escape.2, escape.1) := by
  decide

section Steps

attribute [local simp] doubleQuotedFrom

theorem doubleQuotedFrom_space (inside : 0 < mark.column) :
    doubleQuotedFrom before (.ofBlanks blanks) .outside mark (' ' :: rest) =
      doubleQuotedFrom before (.ofBlanks (blanks ++ [' '])) .outside (mark.advance ' ') rest := by
  have noMark : Cursor.atAnyDocumentMark ⟨mark, ' ' :: rest⟩ = false :=
    Cursor.not_atAnyDocumentMark_of_column inside
  simp [noMark, isBlank]

/-- A character that is written as itself brings the blank space before it along. -/
theorem doubleQuotedFrom_unescaped (notBlank : isBlank c = false) (inLine : isBreak c = false)
    (notQuote : c ≠ '"') (notBackslash : c ≠ '\\') (inside : 0 < mark.column) :
    doubleQuotedFrom before (.ofBlanks blanks) .outside mark (c :: rest) =
      doubleQuotedFrom (c :: (blanks.reverse ++ before)) .none .outside (mark.advance c) rest := by
  have noMark : Cursor.atAnyDocumentMark ⟨mark, c :: rest⟩ = false :=
    Cursor.not_atAnyDocumentMark_of_column inside
  simp [noMark, notBlank, inLine, notQuote, notBackslash]

/-- So does the beginning of an escape. -/
theorem doubleQuotedFrom_backslash (inside : 0 < mark.column) :
    doubleQuotedFrom before (.ofBlanks blanks) .outside mark ('\\' :: rest) =
      doubleQuotedFrom (blanks.reverse ++ before) .none .begun (mark.advance '\\') rest := by
  have noMark : Cursor.atAnyDocumentMark ⟨mark, '\\' :: rest⟩ = false :=
    Cursor.not_atAnyDocumentMark_of_column inside
  simp [noMark, isBlank, isBreak]

theorem doubleQuotedFrom_named {escape : Char × Char} (member : escape ∈ namedEscapes) :
    doubleQuotedFrom before .none .begun mark (escape.2 :: rest) =
      doubleQuotedFrom (escape.1 :: before) .none .outside (mark.advance escape.2) rest := by
  obtain ⟨inLine, found⟩ := namedEscape_read escape member
  simp [inLine, found]

theorem doubleQuotedFrom_count {count : Char × Nat} (member : count ∈ digitCounts) :
    doubleQuotedFrom before .none .begun mark (count.1 :: rest) =
      doubleQuotedFrom before .none (.digits count.2 0) (mark.advance count.1) rest := by
  have unnamed : ∀ count ∈ digitCounts, isBreak count.1 = false ∧
    escapes.find? (·.1 = count.1) = none ∧ digitCounts.find? (·.1 = count.1) = some count := by decide
  obtain ⟨inLine, notNamed, found⟩ := unnamed count member
  simp [inLine, notNamed, found]

theorem doubleQuotedFrom_close (inside : 0 < mark.column) :
    doubleQuotedFrom before (.ofBlanks blanks) .outside mark ('"' :: tail) =
      some ⟨before.reverse ++ blanks, ⟨mark.advance '"', tail⟩, false⟩ := by
  have noMark : Cursor.atAnyDocumentMark ⟨mark, '"' :: tail⟩ = false :=
    Cursor.not_atAnyDocumentMark_of_column inside
  simp [noMark, isBlank, isBreak]

end Steps

/-- What is written for a character: itself, a name, or the digits of its code point. -/
inductive Written (c : Char) : List Char → Prop where
  | itself : isPrintable c = true → isBreak c = false → c ≠ '"' → c ≠ '\\' → Written c [c]
  | named {name : Char} : (c, name) ∈ namedEscapes → Written c ['\\', name]
  | digits {sign : Char} {width : Nat} : (sign, width + 1) ∈ digitCounts → c.toNat < 16 ^ (width + 1) →
      Written c ('\\' :: sign :: hexDigits (width + 1) c.toNat)

theorem written_escapedChar (c : Char) : Written c (escapedChar c) := by
  unfold escapedChar
  split
  next plain =>
    simp only [Bool.and_eq_true, Bool.not_eq_true', bne_iff_ne, ne_eq] at plain
    exact .itself plain.1.1.1 plain.1.1.2 plain.1.2 plain.2
  next =>
    split
    next escape found =>
      have same : escape.1 = c := by simpa using List.find?_some found
      exact .named (same ▸ List.mem_of_find?_eq_some found)
    next =>
      split
      next small => exact .digits (by decide) (by omega)
      next =>
        split
        next small => exact .digits (by decide) (by omega)
        next =>
          have bound : c.toNat < 0x110000 := by
            rcases c.valid with low | ⟨-, high⟩
            · exact Nat.lt_trans low (by decide)
            · exact high
          exact .digits (by decide) (by omega)

theorem escapedChar_printable (c : Char) :
    ∀ d ∈ escapedChar c, isPrintable d = true ∧ isBreak d = false := by
  have written := written_escapedChar c
  generalize escapedChar c = text at written ⊢
  cases written with
  | itself printable inLine => simp [printable, inLine]
  | named member =>
    have legible : ∀ escape ∈ namedEscapes, isPrintable escape.2 = true ∧ isBreak escape.2 = false := by
      decide
    exact List.forall_mem_cons.mpr ⟨by decide, List.forall_mem_singleton.mpr (legible _ member)⟩
  | digits member =>
    have legible : ∀ count ∈ digitCounts, isPrintable count.1 = true ∧ isBreak count.1 = false := by
      decide
    exact List.forall_mem_cons.mpr ⟨by decide, List.forall_mem_cons.mpr
      ⟨legible _ member, hexDigits_printable _ _⟩⟩

/-- A character other than the space brings the blank space before it along. -/
theorem doubleQuotedFrom_char (notSpace : c ≠ ' ') (inside : 0 < mark.column) :
    doubleQuotedFrom before (.ofBlanks blanks) .outside mark (escapedChar c ++ rest) =
      doubleQuotedFrom (c :: (blanks.reverse ++ before)) .none .outside (mark.after (escapedChar c))
        rest := by
  have written := written_escapedChar c
  generalize escapedChar c = text at written ⊢
  cases written with
  | itself printable inLine notQuote notBackslash =>
    exact doubleQuotedFrom_unescaped (not_isBlank_of_ne_space printable notSpace) inLine notQuote
      notBackslash inside
  | named member =>
    rw [List.cons_append, doubleQuotedFrom_backslash inside, List.cons_append,
      doubleQuotedFrom_named member]
    rfl
  | @digits sign width member small =>
    have point : codePoint? (0 * 16 ^ (width + 1) + c.toNat % 16 ^ (width + 1)) = some c := by
      rw [Nat.zero_mul, Nat.zero_add, Nat.mod_eq_of_lt small, codePoint?_toNat]
    rw [List.cons_append, doubleQuotedFrom_backslash inside, List.cons_append,
      doubleQuotedFrom_count member, doubleQuotedFrom_digits point]
    rfl

theorem column_after_escapedChar (inside : 0 < mark.column) :
    0 < (mark.after (escapedChar c)).column := by
  rw [Mark.after_of_unbroken fun d member => (escapedChar_printable c d member).2]
  exact Nat.add_pos_left inside _

/-- The induction is on the text; the blanks are those since its last other character. -/
theorem doubleQuotedFrom_text (inside : 0 < mark.column) :
    doubleQuotedFrom before (.ofBlanks blanks) .outside mark (cs.flatMap escapedChar ++ '"' :: tail) =
      some ⟨before.reverse ++ blanks ++ cs, ⟨(mark.after (cs.flatMap escapedChar)).advance '"', tail⟩,
        false⟩ := by
  induction cs generalizing before blanks mark with
  | nil => simpa using doubleQuotedFrom_close inside
  | cons c cs ih =>
    rw [List.flatMap_cons, List.append_assoc]
    by_cases space : c = ' '
    · subst space
      have unescaped : escapedChar ' ' = [' '] := rfl
      have moved : 0 < (mark.advance ' ').column := Nat.succ_pos _
      rw [unescaped, List.singleton_append, doubleQuotedFrom_space inside, ih moved]
      simp
    · rw [doubleQuotedFrom_char space inside, ← Pending.ofBlanks_nil, ih (column_after_escapedChar inside)]
      simp

theorem doubleQuotedFrom_doubleQuoted (inside : 0 < mark.column) :
    doubleQuotedFrom [] .none .outside mark ((doubleQuoted cs).tail ++ tail) =
      some ⟨cs, ⟨mark.after (doubleQuoted cs).tail, tail⟩, false⟩ := by
  rw [doubleQuoted, List.tail_cons, List.append_assoc, List.singleton_append, ← Pending.ofBlanks_nil,
    doubleQuotedFrom_text inside]
  simp

end Colorization.Yaml
