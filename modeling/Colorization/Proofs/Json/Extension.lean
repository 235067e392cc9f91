import Colorization.Proofs.Json.Legible
import Mathlib.Data.List.TakeWhile

/-! Text that follows what was read. A quoted text, an array and an object end with a mark of
their own, so nothing behind them matters; a number ends where something else begins, so it
is only known to have ended if something is left over. -/
namespace Colorization.Json

/-- What was read stays so, whatever comes after the text. -/
def Closed (run : List Char → Except Fault (α × List Char)) : Prop :=
  ∀ cs value rest, run cs = .ok (value, rest) →
    ∀ more, run (cs ++ more) = .ok (value, rest ++ more)

/-- What was read stays so if the text did not end with it. -/
def Steady (run : List Char → Except Fault (α × List Char)) : Prop :=
  ∀ cs value rest, run cs = .ok (value, rest) → rest ≠ [] →
    ∀ more, run (cs ++ more) = .ok (value, rest ++ more)

theorem skipBlank_more (started : skipBlank cs = c :: rest) (more : List Char) :
    skipBlank (cs ++ more) = c :: (rest ++ more) := by
  unfold skipBlank at started ⊢
  rw [List.dropWhile_append, started]
  rfl

theorem readUnit_closed : Closed readUnit := by
  intro cs value rest read more
  simp only [readUnit] at read
  split at read
  · split at read
    next first second third fourth =>
      cases read
      simp only [List.cons_append, readUnit, first, second, third, fourth]
    · split at read <;> cases read
  · split at read <;> cases read

theorem readCodePoint_closed : Closed readCodePoint := by
  intro cs value rest read more
  simp only [readCodePoint] at read
  split at read
  · cases read
  next unit after first =>
    have firstMore := readUnit_closed _ _ _ first more
    split at read
    · cases read
    next notTrailing =>
      split at read
      next leading =>
        split at read
        · cases read
        · cases read
        · split at read
          · cases read
          next low last second =>
            have secondMore := readUnit_closed _ _ _ second more
            split at read
            next trailing =>
              simp only [Except.ok.injEq, Prod.mk.injEq] at read
              obtain ⟨rfl, rfl⟩ := read
              simp only [readCodePoint, firstMore, List.cons_append, secondMore, if_neg notTrailing,
                if_pos leading, if_pos trailing]
            · cases read
        · cases read
        · cases read
      next notLeading =>
        simp only [Except.ok.injEq, Prod.mk.injEq] at read
        obtain ⟨rfl, rfl⟩ := read
        simp only [readCodePoint, firstMore, if_neg notTrailing, if_neg notLeading]

theorem readEscape_closed : Closed readEscape := by
  intro cs value rest read more
  cases cs with
  | nil => cases read
  | cons c tail =>
    simp only [List.cons_append, readEscape] at read ⊢
    split at read
    next itself =>
      cases read
      rw [if_pos itself]
    next other =>
      rw [if_neg other]
      iterate 5
        split at read
        next letter => cases read; subst letter; rfl
      split at read
      next unicode =>
        subst unicode
        exact readCodePoint_closed _ _ _ read more
      · cases read

/-- The induction is on the characters that are still to be read. -/
theorem readQuoted_closed (before : List Char) : Closed (readQuoted before) := by
  intro cs value rest read more
  fun_induction readQuoted before cs with
  | case1 => cases read
  | case2 before tail =>
    cases read
    rw [List.cons_append, readQuoted, if_pos rfl]
  | case3 => cases read
  | case4 before tail c after escape shorter notQuote ih =>
    have escapeMore := readEscape_closed _ _ _ escape more
    rw [List.cons_append, readQuoted, if_neg (by decide), if_pos rfl]
    split
    next failed => rw [escapeMore] at failed; cases failed
    next found rest' again =>
      cases escapeMore.symm.trans again
      exact ih read
  | case5 => cases read
  | case6 before c tail notQuote notBackslash visible ih =>
    rw [List.cons_append, readQuoted, if_neg notQuote, if_neg notBackslash, if_neg visible]
    exact ih read

theorem readWord_closed (result : Json) (word : List Char) : Closed (readWord result word) := by
  intro cs value rest read more
  induction word generalizing cs with
  | nil => cases read; rfl
  | cons c word ih =>
    cases cs with
    | nil => cases read
    | cons d tail =>
      simp only [readWord, List.cons_append] at read ⊢
      split at read
      next same => rw [if_pos same]; exact ih tail read
      · cases read

/-- The digits in front of something that is no digit. -/
theorem digits_more (ended : cs.dropWhile Char.isDigit ≠ []) (more : List Char) :
    (cs ++ more).takeWhile Char.isDigit = cs.takeWhile Char.isDigit ∧
      (cs ++ more).dropWhile Char.isDigit = cs.dropWhile Char.isDigit ++ more := by
  constructor
  · rw [List.takeWhile_append, if_neg]
    intro all
    apply ended
    have whole := List.takeWhile_append_dropWhile (p := Char.isDigit) (l := cs)
    have lengths := congrArg List.length whole
    rw [List.length_append] at lengths
    exact List.eq_nil_of_length_eq_zero (by omega)
  · rw [List.dropWhile_append, if_neg]
    simpa using ended

theorem finishReal_closed (negative : Bool) (significand : Nat) (exponent : Int) :
    Closed (finishReal negative significand exponent) := by
  intro cs value rest read more
  simp only [finishReal] at read ⊢
  split at read <;> cases read
  rfl

theorem unsigned_more (c : Char) (tail more : List Char) :
    unsigned (c :: tail ++ more) = unsigned (c :: tail) ++ more := by
  by_cases plus : c = '+'
  · subst plus; rfl
  · by_cases minus : c = '-'
    · subst minus; rfl
    · simp [unsigned, plus, minus]

theorem readExponent_steady (negative : Bool) (significand : Nat) (exponent : Int) :
    Steady (readExponent negative significand exponent) := by
  intro cs value rest read left more
  cases cs with
  | nil => cases read
  | cons sign tail =>
    have same : (sign :: tail ++ more).head? = (sign :: tail).head? := rfl
    simp only [readExponent, unsigned_more, same] at read ⊢
    generalize unsigned (sign :: tail) = digits at *
    cases digits with
    | nil => cases read
    | cons c after =>
      simp only [List.cons_append] at read ⊢
      split at read
      next digit =>
        rw [if_pos digit]
        have remains : rest = (c :: after).dropWhile Char.isDigit := by
          split at read
          · exact rest_of_finishReal read
          · split at read <;> cases read
            rfl
        obtain ⟨written, behind⟩ := digits_more (remains ▸ left) more
        rw [List.cons_append] at written behind
        rw [written, behind]
        split at read
        next fits =>
          rw [if_pos fits]
          exact finishReal_closed _ _ _ _ _ _ read more
        next tooLong =>
          rw [if_neg tooLong]
          split at read
          · cases read
          next vanishes =>
            cases read
            rw [if_neg vanishes]
      · cases read

theorem readPower_steady (negative : Bool) (significand : Nat) (exponent : Int) :
    Steady (readPower negative significand exponent) := by
  intro cs value rest read left more
  simp only [readPower] at read
  split at read
  · exact readExponent_steady _ _ _ _ _ _ read left more
  · exact readExponent_steady _ _ _ _ _ _ read left more
  next noLower noUpper =>
    have finished := finishReal_closed _ _ _ _ _ _ read more
    cases cs with
    | nil => exact absurd (rest_of_finishReal read) left
    | cons c tail =>
      unfold readPower
      split
      next same => cases same; exact absurd rfl (noLower _)
      next same => cases same; exact absurd rfl (noUpper _)
      · exact finished

theorem readPower_nil (read : readPower negative significand exponent [] = .ok (value, rest)) :
    rest = [] :=
  rest_of_finishReal read

theorem readFraction_steady (negative : Bool) (significand : Nat) (exponent : Int) :
    Steady (readFraction negative significand exponent) := by
  intro cs value rest read left more
  simp only [readFraction] at read ⊢
  have ended : cs.dropWhile Char.isDigit ≠ [] := by
    intro none
    rw [none] at read
    split at read
    · cases read
    · exact left (readPower_nil read)
  obtain ⟨written, behind⟩ := digits_more ended more
  rw [written, behind]
  split at read
  · cases read
  · exact readPower_steady _ _ _ _ _ _ read left more

theorem readNumber_steady (negative : Bool) : Steady (readNumber negative) := by
  intro cs value rest read left more
  cases cs with
  | nil => cases read
  | cons c tail =>
    simp only [readNumber] at read
    split at read
    · cases read
    next digit =>
      split at read
      · cases read
      next noZero =>
        have ended : (c :: tail).dropWhile Char.isDigit ≠ [] := by
          intro none
          rw [none] at read
          simp only at read
          split at read
          · cases read
            exact left rfl
          · exact left (rest_of_finishReal read)
        obtain ⟨written, behind⟩ := digits_more ended more
        have head : (tail ++ more).head? = tail.head? := by
          cases tail with
          | nil => simp [Decidable.not_not.mp digit] at ended
          | cons d tail => rfl
        rw [List.cons_append] at written behind
        simp only [List.cons_append, readNumber, written, behind, head, if_neg digit, if_neg noZero]
        generalize (c :: tail).dropWhile Char.isDigit = remaining at *
        cases remaining with
        | nil => exact absurd rfl ended
        | cons d after =>
          split at read
          next same => cases same; exact readFraction_steady _ _ _ _ _ _ read left more
          next same => cases same; exact readPower_steady _ _ _ _ _ _ read left more
          next same => cases same; exact readPower_steady _ _ _ _ _ _ read left more
          next noPoint noLower noUpper =>
            split
            next same => cases same; exact absurd rfl (noPoint _)
            next same => cases same; exact absurd rfl (noLower _)
            next same => cases same; exact absurd rfl (noUpper _)
            split at read
            next whole => cases read; rfl
            · exact finishReal_closed _ _ _ _ _ _ read more

namespace Series

variable {series : Series} {item : Reader α}

theorem ne_nil_of_readMore (read : series.readMore item before cs = .ok (value, rest)) :
    cs ≠ [] :=
  List.ne_nil_of_length_pos (Nat.zero_lt_of_lt (readMore_shrinks read))

/-- An item is followed by a comma or the closing mark, so the text did not end with it. -/
theorem readMore_closed (marked : series.Marked) (steady : Steady item.run) (before : List α) :
    Closed (series.readMore item before) := by
  intro cs value rest read more
  fun_induction readMore series item before cs with
  | case1 => cases read
  | case2 before cs after closed =>
    cases read
    exact readMore_close (skipBlank_more closed more)
  | case3 => cases read
  | case4 => cases read
  | case5 => cases read
  | case6 before cs after next tail started notLast value left taken comma notComma shorter ih =>
    have takenMore := steady _ _ _ taken (ne_nil_of_readMore read) more
    rw [readMore_next (skipBlank_more comma more) marked.notComma (skipBlank_more started more)
      notLast takenMore]
    exact ih read
  | case7 => cases read

theorem readItems_closed (marked : series.Marked) (steady : Steady item.run) :
    Closed (series.readItems item) := by
  intro cs value rest read more
  simp only [readItems] at read
  split at read
  · cases read
  next c tail started =>
    simp only [readItems, skipBlank_more started more]
    split at read
    next closed =>
      cases read
      rw [if_pos closed]
    next notClose =>
      rw [if_neg notClose]
      split at read
      · cases read
      next first left taken =>
        have takenMore := steady _ _ _ taken (ne_nil_of_readMore read) more
        rw [List.cons_append] at takenMore
        rw [takenMore]
        exact readMore_closed marked steady _ _ _ _ read more

end Series

theorem readMember_steady {value : Reader Json} (steady : Steady value.run) :
    Steady (member value).run := by
  intro cs found rest read left more
  change readMember value cs = _ at read
  change readMember value (cs ++ more) = _
  simp only [readMember] at read
  split at read
  · split at read
    · cases read
    next keyRead =>
      have keyMore := readQuoted_closed _ _ _ _ keyRead more
      split at read
      · cases read
      next colon =>
        have colonMore := skipBlank_more colon more
        split at read
        · cases read
        next valueRead =>
          cases read
          have valueMore := steady _ _ _ valueRead left more
          simp only [List.cons_append, readMember, keyMore, colonMore, valueMore]
      · cases read
  · cases read

/-- An array ends with its bracket, so it is read alike with nothing left over. -/
theorem readValueWith_array_closed {inner : Option (Reader Json)}
    (steady : ∀ item, inner = some item → Steady item.run) {cs tail rest : List Char}
    (started : skipBlank cs = '[' :: tail) {value : Json}
    (read : readValueWith inner cs = .ok (value, rest)) (more : List Char) :
    readValueWith inner (cs ++ more) = .ok (value, rest ++ more) := by
  cases inner with
  | none => simp [readValueWith, started] at read
  | some item =>
    cases taken : Series.array.readItems item tail with
    | error fault => simp [readValueWith, started, taken] at read
    | ok result =>
      have takenMore := Series.readItems_closed Series.array_marked (steady _ rfl) _ _ _ taken more
      simp only [readValueWith, started, taken] at read
      cases read
      simp [readValueWith, skipBlank_more started more, takenMore]

theorem readValueWith_steady {inner : Option (Reader Json)}
    (steady : ∀ item, inner = some item → Steady item.run) : Steady (readValueWith inner) := by
  intro cs value rest read left more
  have whole := read
  simp only [readValueWith] at read
  split at read
  · cases read
  next c tail started =>
    simp only [readValueWith, skipBlank_more started more]
    iterate 3
      split at read
      next letter =>
        subst letter
        exact readWord_closed _ _ _ _ _ read more
    split at read
    next quote =>
      subst quote
      split at read
      · cases read
      next taken =>
        cases read
        have takenMore := readQuoted_closed _ _ _ _ taken more
        simp [takenMore]
    split at read
    next number =>
      split at read
      · cases read
      next taken =>
        cases read
        have takenMore := readNumber_steady _ _ _ _ taken left more
        have text : (if c = '-' then tail else c :: tail) ++ more =
            if c = '-' then tail ++ more else c :: (tail ++ more) := by
          split <;> rfl
        rw [text] at takenMore
        rw [if_neg ‹¬c = 'n'›, if_neg ‹¬c = 't'›, if_neg ‹¬c = 'f'›, if_neg ‹¬c = '"'›,
          if_pos number, takenMore]
    split at read
    next bracket =>
      subst bracket
      have wholeMore := readValueWith_array_closed steady started whole more
      rw [readValueWith, skipBlank_more started more] at wholeMore
      exact wholeMore
    split at read
    next brace =>
      subst brace
      cases inner with
      | none => cases read
      | some item =>
        simp only at read
        split at read
        · cases read
        next taken =>
          cases read
          have takenMore := Series.readItems_closed Series.object_marked
            (readMember_steady (steady _ rfl)) _ _ _ taken more
          simp [takenMore]
    · cases read

/-- The induction is on the depth to which values may be nested. -/
theorem readValue_steady (depth : Nat) : Steady (readValue depth).run := by
  induction depth with
  | zero =>
    change Steady (readValueWith none)
    exact readValueWith_steady (by simp)
  | succ depth ih =>
    change Steady (readValueWith (some (readValue depth)))
    apply readValueWith_steady
    rintro _ ⟨⟩
    exact ih

theorem readValue_array_closed (depth : Nat) {cs tail rest : List Char}
    (started : skipBlank cs = '[' :: tail) {value : Json}
    (read : (readValue depth).run cs = .ok (value, rest)) (more : List Char) :
    (readValue depth).run (cs ++ more) = .ok (value, rest ++ more) := by
  cases depth with
  | zero =>
    change readValueWith none cs = _ at read
    exact readValueWith_array_closed (by simp) started read more
  | succ depth =>
    change readValueWith (some (readValue depth)) cs = _ at read
    apply readValueWith_array_closed _ started read more
    rintro _ ⟨⟩
    exact readValue_steady depth

/-- Where an array is read up to its bracket, no text that stops before it is a document. -/
theorem readDocument_cut {cut left : List Char} {value : Json}
    (whole : (readValue depthLimit).run (cut ++ left) = .ok (value, [])) (proper : left ≠ [])
    (starts : cut ≠ [] → ∃ tail, skipBlank cut = '[' :: tail) :
    ∃ fault, readDocument cut = .error fault := by
  cases read : (readValue depthLimit).run cut with
  | error fault => exact ⟨fault, by simp [readDocument, read]⟩
  | ok result =>
    exfalso
    have shrinks := (readValue depthLimit).shrinks read
    obtain ⟨tail, started⟩ := starts (List.ne_nil_of_length_pos (Nat.zero_lt_of_lt shrinks))
    have wholeToo := readValue_array_closed depthLimit started read left
    rw [whole] at wholeToo
    simp only [Except.ok.injEq, Prod.mk.injEq, List.nil_eq, List.append_eq_nil_iff] at wholeToo
    exact proper wholeToo.2.2

theorem skipBlank_eq_nil_iff (cs : List Char) :
    skipBlank cs = [] ↔ ∀ c ∈ cs, blank c = true :=
  List.dropWhile_eq_nil_iff

/-- Behind a value that is read whatever follows, a document has blanks and nothing else. -/
theorem readDocument_followed {text : List Char} {value : Json}
    (takes : (readValue depthLimit).Takes text value) (more : List Char) :
    (∀ other, readDocument (text ++ more) = .ok other ↔
      (∀ c ∈ more, blank c = true) ∧ other = value) := by
  intro other
  rw [← skipBlank_eq_nil_iff]
  simp only [readDocument, takes more]
  cases skipBlank more with
  | nil => simp [eq_comm]
  | cons c rest => simp

end Colorization.Json
