import Colorization.Json.Quoted

/-! Reading a quoted text gives back the text that was quoted, whatever characters it has. -/
namespace Colorization.Json

theorem hexValue?_digitChar : ∀ digit < 16, hexValue? (Nat.digitChar digit) = some digit := by
  decide

/-- The four digits of a number below 256. -/
theorem readUnit_digits {value : Nat} (bound : value < 256) (rest : List Char) :
    readUnit ('0' :: '0' :: Nat.digitChar (value / 16) :: Nat.digitChar (value % 16) :: rest) =
      .ok (value, rest) := by
  have zero : hexValue? '0' = some 0 := by decide
  have high := hexValue?_digitChar (value / 16) (by omega)
  have low := hexValue?_digitChar (value % 16) (by omega)
  simp only [readUnit, zero, high, low]
  congr 2
  omega

theorem readEscape_unit {c : Char} (bound : c.toNat < 0x20) (rest : List Char) :
    readEscape ('u' :: '0' :: '0' :: Nat.digitChar (c.toNat / 16) ::
      Nat.digitChar (c.toNat % 16) :: rest) = .ok (c, rest) := by
  have unit := readUnit_digits (Nat.lt_trans bound (by decide : 0x20 < 256)) rest
  have notTrailing : ¬ (0xDC00 ≤ c.toNat ∧ c.toNat ≤ 0xDFFF) := by omega
  have notLeading : ¬ (0xD800 ≤ c.toNat ∧ c.toNat ≤ 0xDBFF) := by omega
  simp [readEscape, readCodePoint, unit, notTrailing, notLeading, Char.ofNat_toNat]

theorem readQuoted_close (before rest : List Char) :
    readQuoted before ('"' :: rest) = .ok (String.ofList before.reverse, rest) := by
  rw [readQuoted, if_pos rfl]

theorem readQuoted_backslash (before : List Char) {cs rest : List Char}
    (escape : readEscape cs = .ok (c, rest)) :
    readQuoted before ('\\' :: cs) = readQuoted (c :: before) rest := by
  rw [readQuoted, if_neg (by decide), if_pos rfl]
  split
  next fault failed => rw [escape] at failed; cases failed
  next found rest' read =>
    cases escape.symm.trans read
    rfl

theorem readQuoted_plain (before : List Char) {c : Char} (notQuote : c ≠ '"')
    (notBackslash : c ≠ '\\') (visible : ¬ c.toNat < 0x20) (rest : List Char) :
    readQuoted before (c :: rest) = readQuoted (c :: before) rest := by
  rw [readQuoted, if_neg notQuote, if_neg notBackslash, if_neg visible]

/-- One case for each way to write a character. -/
theorem readQuoted_escaped (before : List Char) (c : Char) (rest : List Char) :
    readQuoted before (escaped c ++ rest) = readQuoted (c :: before) rest := by
  unfold escaped
  iterate 7
    split
    · subst c
      exact readQuoted_backslash before rfl
  split
  next control => exact readQuoted_backslash before (readEscape_unit control rest)
  next visible => exact readQuoted_plain before ‹c ≠ '"'› ‹c ≠ '\\'› visible rest

theorem readQuoted_flatMap (before cs rest : List Char) :
    readQuoted before (cs.flatMap escaped ++ '"' :: rest) =
      .ok (String.ofList (before.reverse ++ cs), rest) := by
  induction cs generalizing before with
  | nil => simp [readQuoted_close]
  | cons c cs ih =>
    rw [List.flatMap_cons, List.append_assoc, readQuoted_escaped, ih]
    simp

theorem readQuoted_text (text : String) (rest : List Char) :
    readQuoted [] (text.toList.flatMap escaped ++ '"' :: rest) = .ok (text, rest) := by
  simp [readQuoted_flatMap]

end Colorization.Json
