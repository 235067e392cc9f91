import Colorization.Proofs.Json.Legible

/-! A value is known from its text, in whatever layout: values of exact numbers that are written alike
are the same. That is more than that values are read back, as members need not stand in the order of
their keys. The proofs take two texts with something behind each; a number is known from what stands
before the first character that is no digit. -/
namespace Colorization.Json

variable {rest rest' : List Char}

/-- No digit comes next. -/
def EndsNumber (rest : List Char) : Prop := ∀ c more, rest = c :: more → c.isDigit = false

theorem endsNumber_nil : EndsNumber [] := nofun

theorem endsNumber_cons {c : Char} (noDigit : c.isDigit = false) (more : List Char) :
    EndsNumber (c :: more) := by
  rintro _ _ ⟨⟩
  exact noDigit

theorem takeWhile_digits {digits : List Char} (all : ∀ c ∈ digits, c.isDigit = true)
    (ends : EndsNumber rest) : (digits ++ rest).takeWhile Char.isDigit = digits := by
  rw [List.takeWhile_append_of_pos all]
  cases rest with
  | nil => simp
  | cons c more => simp [ends c more rfl]

theorem digits_inj {n m : Nat} (same : Nat.toDigits 10 n = Nat.toDigits 10 m) : n = m := by
  rw [← Nat.ofDigitChars_ten_toDigits (n := n), same, Nat.ofDigitChars_ten_toDigits]

theorem digits_append_inj {n m : Nat} (ends : EndsNumber rest) (ends' : EndsNumber rest')
    (same : Nat.toDigits 10 n ++ rest = Nat.toDigits 10 m ++ rest') : n = m ∧ rest = rest' := by
  have digits (k : Nat) : ∀ c ∈ Nat.toDigits 10 k, c.isDigit = true :=
    fun _ => Nat.isDigit_of_mem_toDigits (by decide) (by decide)
  have alike := congrArg (List.takeWhile Char.isDigit) same
  rw [takeWhile_digits (digits n) ends, takeWhile_digits (digits m) ends'] at alike
  exact ⟨digits_inj alike, List.append_cancel_left (alike ▸ same)⟩

theorem toList_toString_negSucc (n : Nat) :
    (toString (Int.negSucc n)).toList = '-' :: Nat.toDigits 10 (n + 1) := by
  simp [toString, Int.repr]

theorem toList_toString_ofNat (n : Nat) : (toString (Int.ofNat n)).toList = Nat.toDigits 10 n := by
  simp [toString, Int.repr]

theorem toDigits_begins (n : Nat) : ∃ c more, Nat.toDigits 10 n = c :: more ∧ c.isDigit = true := by
  obtain ⟨c, more, digits⟩ := List.exists_cons_of_ne_nil (Nat.toDigits_ne_nil (b := 10) (n := n))
  refine ⟨c, more, digits, Nat.isDigit_of_mem_toDigits (n := n) (by decide) (Nat.le_refl 10) ?_⟩
  rw [digits]
  exact List.mem_cons_self

theorem toDigits_append_ne (n : Nat) (more : List Char) : Nat.toDigits 10 n ++ rest ≠ '-' :: more := by
  obtain ⟨c, _, digits, isDigit⟩ := toDigits_begins n
  intro same
  rw [digits] at same
  cases same
  exact absurd isDigit (by decide)

theorem integer_append_inj {value other : Int} (ends : EndsNumber rest) (ends' : EndsNumber rest')
    (same : (toString value).toList ++ rest = (toString other).toList ++ rest') :
    value = other ∧ rest = rest' := by
  cases value with
  | ofNat n =>
    cases other with
    | ofNat m =>
      rw [toList_toString_ofNat, toList_toString_ofNat] at same
      obtain ⟨rfl, left⟩ := digits_append_inj ends ends' same
      exact ⟨rfl, left⟩
    | negSucc m =>
      rw [toList_toString_ofNat, toList_toString_negSucc] at same
      exact absurd same (toDigits_append_ne n _)
  | negSucc n =>
    cases other with
    | ofNat m =>
      rw [toList_toString_ofNat, toList_toString_negSucc] at same
      exact absurd same.symm (toDigits_append_ne m _)
    | negSucc m =>
      rw [toList_toString_negSucc, toList_toString_negSucc] at same
      obtain ⟨sameDigits, left⟩ := digits_append_inj ends ends' (List.cons.inj same).2
      cases sameDigits
      exact ⟨rfl, left⟩

theorem quoted_append_inj {text other : String} (same : quoted text ++ rest = quoted other ++ rest') :
    text = other ∧ rest = rest' := by
  simp only [quoted, List.cons_append, List.nil_append, List.append_assoc, List.cons.injEq,
    true_and] at same
  have read := readQuoted_text text rest
  rw [same, readQuoted_text] at read
  cases read
  exact ⟨rfl, rfl⟩

/-- The texts of two items are told apart, whatever comes behind them that is no digit. -/
def ToldApart (text : α → List Char) (item other : α) : Prop :=
  ∀ rest rest', EndsNumber rest → EndsNumber rest' → text item ++ rest = text other ++ rest' →
    item = other ∧ rest = rest'

section Bracketed

variable {series : Series} {layout : Layout} {text : α → List Char} {items others : List α}

theorem noDigit_of_blank {c : Char} (isBlank : blank c = true) : c.isDigit = false := by
  simp only [blank, Bool.or_eq_true, decide_eq_true_eq] at isBlank
  rcases isBlank with ((rfl | rfl) | rfl) | rfl <;> decide

/-- What closes a series begins with a blank or with the closing mark. -/
theorem closing_begins (series : Series) (blanks : layout.Blank) (depth : Nat) (rest : List Char) :
    ∃ c more, layout.line depth ++ series.close :: rest = c :: more ∧
      (blank c = true ∨ c = series.close) := by
  cases line : layout.line depth with
  | nil => exact ⟨_, _, rfl, .inr rfl⟩
  | cons c more => exact ⟨c, _, rfl, .inl (blanks.line depth c (by simp [line]))⟩

theorem closing_ne_comma (marked : series.Marked) (blanks : layout.Blank) (depth : Nat) (more : List Char) :
    layout.line depth ++ series.close :: rest ≠ ',' :: more := by
  obtain ⟨c, _, starts, isBlank | rfl⟩ := closing_begins series blanks depth rest
  · rw [starts]
    rintro ⟨⟩
    exact absurd isBlank (by decide)
  · rw [starts]
    intro same
    exact marked.notComma (List.cons.inj same).1

theorem item_ne_close (marked : series.Marked) (blanks : layout.Blank) (depth : Nat) {item : List Char}
    (begins : Begins series item) (more left : List Char) :
    layout.line depth ++ (item ++ more) ≠ series.close :: left := by
  obtain ⟨c, body, rfl, visible, notClose⟩ := begins
  intro same
  cases line : layout.line depth with
  | nil =>
    rw [line] at same
    exact notClose (List.cons.inj same).1
  | cons b others =>
    rw [line] at same
    have isBlank := blanks.line depth b (by simp [line])
    rw [(List.cons.inj same).1, marked.visible] at isBlank
    cases isBlank

/-- What stands behind an item: the later ones and what closes the series. -/
def behind (series : Series) (layout : Layout) (depth : Nat) (text : α → List Char) (items : List α)
    (rest : List Char) : List Char :=
  items.flatMap (fun item => ',' :: (layout.line (depth + 1) ++ text item)) ++
    (layout.line depth ++ series.close :: rest)

theorem behind_cons (depth : Nat) (item : α) (items : List α) (rest : List Char) :
    behind series layout depth text (item :: items) rest =
      ',' :: (layout.line (depth + 1) ++ (text item ++ behind series layout depth text items rest)) := by
  simp [behind]

theorem bracketed_cons (depth : Nat) (first : Char) (item : α) (items : List α) (rest : List Char) :
    bracketed layout depth first series.close ((item :: items).map text) ++ rest =
      first :: (layout.line (depth + 1) ++ (text item ++ behind series layout depth text items rest)) := by
  simp [bracketed, behind, List.flatMap_map]

theorem endsNumber_behind (noDigit : series.close.isDigit = false) (blanks : layout.Blank) (depth : Nat)
    (items : List α) (rest : List Char) : EndsNumber (behind series layout depth text items rest) := by
  cases items with
  | nil =>
    obtain ⟨c, more, starts, isBlank | rfl⟩ := closing_begins series blanks depth rest
    all_goals rw [behind, List.flatMap_nil, List.nil_append, starts]
    · exact endsNumber_cons (noDigit_of_blank isBlank) more
    · exact endsNumber_cons noDigit more
  | cons item items => exact endsNumber_cons (by decide) _

/-- The induction is on the items of one side. -/
theorem behind_inj (marked : series.Marked) (noDigit : series.close.isDigit = false) (blanks : layout.Blank)
    (depth : Nat) (told : ∀ item ∈ items, ∀ other ∈ others, ToldApart text item other)
    (same : behind series layout depth text items rest = behind series layout depth text others rest') :
    items = others ∧ rest = rest' := by
  induction items generalizing others with
  | nil =>
    cases others with
    | nil => exact ⟨rfl, (List.cons.inj (List.append_cancel_left same)).2⟩
    | cons other others => exact absurd same (closing_ne_comma marked blanks depth _)
  | cons item items ih =>
    cases others with
    | nil => exact absurd same.symm (closing_ne_comma marked blanks depth _)
    | cons other others =>
      rw [behind_cons, behind_cons] at same
      obtain ⟨rfl, later⟩ := told item List.mem_cons_self other List.mem_cons_self _ _
        (endsNumber_behind noDigit blanks depth items rest)
        (endsNumber_behind noDigit blanks depth others rest')
        (List.append_cancel_left (List.cons.inj same).2)
      obtain ⟨sameItems, sameRest⟩ := ih (fun one inItems two inOthers =>
        told one (List.mem_cons_of_mem _ inItems) two (List.mem_cons_of_mem _ inOthers)) later
      exact ⟨congrArg _ sameItems, sameRest⟩

theorem bracketed_append_inj (marked : series.Marked) (noDigit : series.close.isDigit = false)
    (blanks : layout.Blank) (depth : Nat) (first : Char)
    (begins : ∀ item ∈ items ++ others, Begins series (text item))
    (told : ∀ item ∈ items, ∀ other ∈ others, ToldApart text item other)
    (same : bracketed layout depth first series.close (items.map text) ++ rest =
      bracketed layout depth first series.close (others.map text) ++ rest') :
    items = others ∧ rest = rest' := by
  cases items with
  | nil =>
    cases others with
    | nil => exact ⟨rfl, List.append_cancel_left same⟩
    | cons other others =>
      rw [bracketed_cons] at same
      have closed := (List.cons.inj same).2.symm
      exact absurd closed (item_ne_close marked blanks _ (begins other (by simp)) _ _)
  | cons item items =>
    cases others with
    | nil =>
      rw [bracketed_cons] at same
      have closed := (List.cons.inj same).2
      exact absurd closed (item_ne_close marked blanks _ (begins item (by simp)) _ _)
    | cons other others =>
      rw [bracketed_cons, bracketed_cons] at same
      apply behind_inj marked noDigit blanks depth told
      rw [behind_cons, behind_cons, (List.cons.inj same).2]

end Bracketed

/-- The sorts of values. -/
inductive Form where
  | null | bool | number | text | array | object

def form : Json → Form
  | .null => .null
  | .bool _ => .bool
  | .number _ => .number
  | .text _ => .text
  | .array _ => .array
  | .object _ => .object

/-- What sort of value begins with this character. -/
def formAt (c : Char) : Form :=
  if c = 'n' then .null
  else if c = 't' ∨ c = 'f' then .bool
  else if c = '"' then .text
  else if c = '[' then .array
  else if c = '\x7b' then .object
  else .number

/-- Values in which all numbers are integers. -/
inductive Exact : Json → Prop where
  | null : Exact .null
  | bool : Exact (.bool value)
  | integer : Exact (.number (.integer value))
  | text : Exact (.text value)
  | array : (∀ item ∈ items, Exact item) → Exact (.array items)
  | object : (∀ member ∈ members, Exact member.2) → Exact (.object members)

theorem integer_begins (value : Int) :
    ∃ c more, (toString value).toList = c :: more ∧ (c.isDigit = true ∨ c = '-') := by
  cases value with
  | ofNat n =>
    rw [toList_toString_ofNat]
    obtain ⟨c, more, digits, isDigit⟩ := toDigits_begins n
    exact ⟨c, more, digits, .inl isDigit⟩
  | negSucc n => exact ⟨'-', _, toList_toString_negSucc n, .inr rfl⟩

/-- The characters with which a number begins are those that begin nothing else. -/
theorem ne_of_beginsNumber {c : Char} (begins : c.isDigit = true ∨ c = '-') (mark : Char)
    (notDigit : mark.isDigit = false) (notMinus : mark ≠ '-') : c ≠ mark := by
  rintro rfl
  rcases begins with isDigit | rfl
  · rw [isDigit] at notDigit
    cases notDigit
  · exact notMinus rfl

theorem formAt_beginsNumber {c : Char} (begins : c.isDigit = true ∨ c = '-') : formAt c = .number := by
  have other := ne_of_beginsNumber begins
  simp [formAt, other 'n' (by decide) (by decide), other 't' (by decide) (by decide),
    other 'f' (by decide) (by decide), other '"' (by decide) (by decide), other '[' (by decide) (by decide),
    other '\x7b' (by decide) (by decide)]

/-- The first character of a value tells its sort, is no blank and closes nothing. -/
theorem Exact.starts {value : Json} (exact : Exact value) (layout : Layout) (indent : Nat) :
    ∃ c more, written layout indent value = c :: more ∧ formAt c = value.form ∧ blank c = false ∧
      c ≠ Series.array.close ∧ c ≠ Series.object.close := by
  cases exact with
  | null => exact ⟨'n', _, rfl, rfl, by decide, by decide, by decide⟩
  | @bool flag =>
    cases flag
    · exact ⟨'f', _, rfl, rfl, by decide, by decide, by decide⟩
    · exact ⟨'t', _, rfl, rfl, by decide, by decide, by decide⟩
  | @integer number =>
    obtain ⟨c, more, digits, begins⟩ := integer_begins number
    have other := ne_of_beginsNumber begins
    refine ⟨c, more, digits, formAt_beginsNumber begins, ?_, other _ (by decide) (by decide),
      other _ (by decide) (by decide)⟩
    simp [blank, other ' ' (by decide) (by decide), other '\n' (by decide) (by decide),
      other '\t' (by decide) (by decide), other '\r' (by decide) (by decide)]
  | text => exact ⟨'"', _, rfl, rfl, by decide, by decide, by decide⟩
  | array items =>
    obtain ⟨more, opens⟩ := bracketed_opens layout indent '[' ']' _
    exact ⟨'[', more, opens, rfl, by decide, by decide, by decide⟩
  | object members =>
    obtain ⟨more, opens⟩ := bracketed_opens layout indent '\x7b' '\x7d' _
    exact ⟨'\x7b', more, opens, rfl, by decide, by decide, by decide⟩

variable {layout : Layout} {value other : Json}

theorem Exact.form_eq (exact : Exact value) (exact' : Exact other) {indent : Nat}
    (same : written layout indent value ++ rest = written layout indent other ++ rest') :
    value.form = other.form := by
  obtain ⟨c, _, text, form, -⟩ := exact.starts layout indent
  obtain ⟨c', _, text', form', -⟩ := exact'.starts layout indent
  rw [text, text'] at same
  rw [← form, ← form', (List.cons.inj same).1]

theorem toldApart_member (indent : Nat) {member member' : String × Json}
    (told : ToldApart (written layout indent) member.2 member'.2) :
    ToldApart (writtenMember layout indent) member member' := by
  intro rest rest' ends ends' same
  simp only [writtenMember, List.append_assoc, List.cons_append] at same
  obtain ⟨key, colon⟩ := quoted_append_inj same
  have values := List.append_cancel_left (List.cons.inj colon).2
  obtain ⟨value, left⟩ := told rest rest' ends ends' values
  exact ⟨Prod.ext key value, left⟩

/-- The induction is on the arrays and objects of one side; the other side has the same sort, as its
first character is the same. -/
theorem Exact.toldApart (blanks : layout.Blank) (exact : Exact value) (exact' : Exact other)
    (indent : Nat) : ToldApart (written layout indent) value other := by
  induction exact generalizing other indent with
  | null =>
    intro rest rest' ends ends' same
    have form := Exact.null.form_eq exact' same
    cases exact' with
    | null => exact ⟨rfl, List.append_cancel_left same⟩
    | _ => cases form
  | @bool flag =>
    intro rest rest' ends ends' same
    have form := Exact.bool.form_eq exact' same
    cases exact' with
    | @bool flag' =>
      cases flag <;> cases flag'
      · exact ⟨rfl, List.append_cancel_left same⟩
      · cases same
      · cases same
      · exact ⟨rfl, List.append_cancel_left same⟩
    | _ => cases form
  | integer =>
    intro rest rest' ends ends' same
    have form := Exact.integer.form_eq exact' same
    cases exact' with
    | integer =>
      obtain ⟨rfl, left⟩ := integer_append_inj ends ends' same
      exact ⟨rfl, left⟩
    | _ => cases form
  | text =>
    intro rest rest' ends ends' same
    have form := Exact.text.form_eq exact' same
    cases exact' with
    | text =>
      obtain ⟨rfl, left⟩ := quoted_append_inj same
      exact ⟨rfl, left⟩
    | _ => cases form
  | @array items each ih =>
    intro rest rest' ends ends' same
    have form := (Exact.array each).form_eq exact' same
    cases exact' with
    | @array others each' =>
      simp only [written, writtenItems_eq_map] at same
      have begins : ∀ item ∈ items ++ others, Begins .array (written layout (indent + 1) item) := by
        intro item member
        have exactItem : Exact item := (List.mem_append.mp member).elim (each item) (each' item)
        obtain ⟨c, more, text, -, visible, notClose, -⟩ := exactItem.starts layout (indent + 1)
        exact ⟨c, more, text, visible, notClose⟩
      obtain ⟨rfl, left⟩ := bracketed_append_inj Series.array_marked (by decide) blanks
        indent '[' begins (fun item member item' member' => ih item member (each' item' member') _) same
      exact ⟨rfl, left⟩
    | _ => cases form
  | @object members each ih =>
    intro rest rest' ends ends' same
    have form := (Exact.object each).form_eq exact' same
    cases exact' with
    | @object others each' =>
      simp only [written, writtenMembers_eq_map] at same
      have begins : ∀ member ∈ members ++ others,
          Begins .object (writtenMember layout (indent + 1) member) :=
        fun _ _ => ⟨'"', _, rfl, by decide, by decide⟩
      obtain ⟨rfl, left⟩ := bracketed_append_inj Series.object_marked (by decide) blanks
        indent '\x7b' begins (fun member inside member' inside' =>
          toldApart_member _ (ih member inside (each' member' inside') _)) same
      exact ⟨rfl, left⟩
    | _ => cases form

/-- Two values of exact numbers have different texts, whatever the layout. -/
theorem Exact.write_inj (blanks : layout.Blank) (exact : Exact value) (exact' : Exact other)
    (same : value.write layout = other.write layout) : value = other := by
  have texts : written layout 0 value ++ [] = written layout 0 other ++ [] := by
    rw [List.append_nil, List.append_nil]
    exact String.ofList_injective same
  exact (exact.toldApart blanks exact' 0 [] [] endsNumber_nil endsNumber_nil texts).1

end Colorization.Json
