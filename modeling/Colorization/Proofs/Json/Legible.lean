import Colorization.Json.Reader
import Colorization.Json.Writer
import Colorization.Proofs.Dict
import Colorization.Proofs.Except
import Colorization.Proofs.Json.Quoted

/-! Reading what was written. The layouts of the writer put nothing but blanks between the
parts of a value, and the reader passes over blanks; so a value without numbers whose members
stand in the order of their keys is read back from any layout. -/
namespace Colorization.Json

theorem skipBlank_append {blanks : List Char} (all : ∀ c ∈ blanks, blank c = true)
    (rest : List Char) : skipBlank (blanks ++ rest) = skipBlank rest :=
  List.dropWhile_append_of_pos all

theorem skipBlank_cons {c : Char} (visible : blank c = false) (rest : List Char) :
    skipBlank (c :: rest) = c :: rest := by
  simp [skipBlank, visible]

/-- What stands at the beginning of an item: no blank, and not the mark that ends a series. -/
def Begins (series : Series) (text : List Char) : Prop :=
  ∃ c rest, text = c :: rest ∧ blank c = false ∧ c ≠ series.close

/-- The reader takes exactly this text of an item. -/
def Reader.Takes (item : Reader α) (text : List Char) (value : α) : Prop :=
  ∀ rest, item.run (text ++ rest) = .ok (value, rest)

namespace Series

variable {series : Series} {item : Reader α}

/-- The closing marks of arrays and objects are no blanks and no commas. -/
structure Marked (series : Series) : Prop where
  visible : blank series.close = false
  notComma : series.close ≠ ','

theorem array_marked : array.Marked := ⟨by decide, by decide⟩

theorem object_marked : object.Marked := ⟨by decide, by decide⟩

theorem readMore_close {before : List α} {cs rest : List Char}
    (closed : skipBlank cs = series.close :: rest) :
    series.readMore item before cs = .ok (before.reverse, rest) := by
  rw [readMore]
  split
  next ended => rw [closed] at ended; cases ended
  next c more started =>
    cases closed.symm.trans started
    rw [if_pos rfl]

theorem readMore_next {before : List α} {cs rest : List Char}
    (comma : skipBlank cs = ',' :: rest) (notComma : series.close ≠ ',')
    (next : skipBlank rest = c :: tail) (notClose : c ≠ series.close)
    (taken : item.run (c :: tail) = .ok (value, left)) :
    series.readMore item before cs = series.readMore item (value :: before) left := by
  rw [readMore]
  split
  next ended => rw [comma] at ended; cases ended
  next d others started =>
    cases comma.symm.trans started
    rw [if_neg notComma.symm, if_pos rfl]
    split
    next ended => rw [next] at ended; cases ended
    next e others' started' =>
      cases next.symm.trans started'
      rw [if_neg notClose]
      split
      next failed => rw [taken] at failed; cases failed
      next value' rest' read =>
        cases taken.symm.trans read
        rfl

theorem readMore_comma (marked : series.Marked) {before : List α} {cs rest : List Char}
    (comma : skipBlank cs = ',' :: rest) {text : List Char} (begins : Begins series text)
    (takes : item.Takes text value) (next : skipBlank rest = text ++ more) :
    series.readMore item before cs = series.readMore item (value :: before) more := by
  obtain ⟨c, tail, rfl, -, notClose⟩ := begins
  exact readMore_next comma marked.notComma next notClose (takes more)

/-- The induction is on the items that are still to be read. -/
theorem readMore_written (marked : series.Marked) (text : α → List Char)
    {between last : List Char} (blankBetween : ∀ c ∈ between, blank c = true)
    (blankLast : ∀ c ∈ last, blank c = true) (items before : List α)
    (legible : ∀ value ∈ items, Begins series (text value) ∧ item.Takes (text value) value)
    (rest : List Char) :
    series.readMore item before
        (items.flatMap (fun value => ',' :: (between ++ text value)) ++
          (last ++ series.close :: rest)) =
      .ok (before.reverse ++ items, rest) := by
  induction items generalizing before with
  | nil =>
    have closed : skipBlank (last ++ series.close :: rest) = series.close :: rest := by
      rw [skipBlank_append blankLast, skipBlank_cons marked.visible]
    rw [List.flatMap_nil, List.nil_append, readMore_close closed, List.append_nil]
  | cons value items ih =>
    obtain ⟨begins, takes⟩ := legible value List.mem_cons_self
    have first := begins
    obtain ⟨c, tail, start, visible, -⟩ := first
    rw [List.flatMap_cons, List.cons_append, List.cons_append,
      readMore_comma marked (skipBlank_cons (by decide) _) begins takes]
    · rw [ih (value :: before) fun later member => legible later (List.mem_cons_of_mem _ member)]
      simp
    · rw [List.append_assoc, List.append_assoc, skipBlank_append blankBetween, start,
        List.cons_append, skipBlank_cons visible]

end Series

namespace Layout

/-- A layout adds nothing but blanks. -/
structure Blank (layout : Layout) : Prop where
  line : ∀ depth, ∀ c ∈ layout.line depth, blank c = true
  afterColon : ∀ c ∈ layout.afterColon, blank c = true

theorem compact_blank : compact.Blank := ⟨nofun, nofun⟩

theorem indented_blank {unit : List Char} (blanks : ∀ c ∈ unit, blank c = true) :
    (indented unit).Blank := by
  refine ⟨fun depth c member => ?_, fun c member => ?_⟩
  · rcases List.mem_cons.mp member with rfl | inUnits
    · decide
    · obtain ⟨copy, isCopy, inCopy⟩ := List.mem_flatten.mp inUnits
      exact blanks c (List.eq_of_mem_replicate isCopy ▸ inCopy)
  · cases List.mem_singleton.mp member
    decide

end Layout

/-- Brackets and what is between them, as a series is read. -/
theorem readItems_bracketed {series : Series} (marked : series.Marked) {layout : Layout}
    (blanks : layout.Blank) (depth : Nat) (first : Char) {item : Reader α} (text : α → List Char)
    (items : List α)
    (legible : ∀ value ∈ items, Begins series (text value) ∧ item.Takes (text value) value) :
    ∃ body, bracketed layout depth first series.close (items.map text) = first :: body ∧
      ∀ rest, series.readItems item (body ++ rest) = .ok (items, rest) := by
  cases items with
  | nil =>
    refine ⟨[series.close], rfl, fun rest => ?_⟩
    simp [Series.readItems, skipBlank_cons marked.visible]
  | cons value items =>
    refine ⟨_, rfl, fun rest => ?_⟩
    obtain ⟨begins, takes⟩ := legible value List.mem_cons_self
    obtain ⟨c, tail, start, visible, notClose⟩ := begins
    have more := Series.readMore_written marked text (blanks.line (depth + 1)) (blanks.line depth)
      items [value] (fun later member => legible later (List.mem_cons_of_mem _ member)) rest
    simp only [List.flatMap_map, List.append_assoc, List.singleton_append,
      Series.readItems, skipBlank_append (blanks.line (depth + 1))]
    have taken := takes (items.flatMap (fun other => ',' :: (layout.line (depth + 1) ++ text other)) ++
      (layout.line depth ++ series.close :: rest))
    rw [start, List.cons_append] at taken
    rw [start, List.cons_append, skipBlank_cons visible]
    simp only [if_neg notClose, taken, more]
    simp

theorem writtenItems_eq_map (layout : Layout) (depth : Nat) (items : List Json) :
    writtenItems layout depth items = items.map (written layout depth) := by
  induction items with
  | nil => rfl
  | cons item rest ih => simp [writtenItems, ih]

/-- A member as it is written. -/
def writtenMember (layout : Layout) (depth : Nat) (member : String × Json) : List Char :=
  quoted member.1 ++ ':' :: (layout.afterColon ++ written layout depth member.2)

theorem writtenMembers_eq_map (layout : Layout) (depth : Nat) (members : List (String × Json)) :
    writtenMembers layout depth members = members.map (writtenMember layout depth) := by
  induction members with
  | nil => rfl
  | cons member rest ih => simp [writtenMembers, writtenMember, ih]

/-- Values that are read as they were written: they have no numbers, the members of objects
stand in the order of their keys, and at most `depth` arrays and objects are open at once. -/
inductive Legible : Nat → Json → Prop where
  | null : Legible depth .null
  | bool : Legible depth (.bool value)
  | text : Legible depth (.text value)
  | array : (∀ item ∈ items, Legible depth item) → Legible (depth + 1) (.array items)
  | object : Entries.Sorted members → (∀ member ∈ members, Legible depth member.2) →
      Legible (depth + 1) (.object members)

theorem readValue_run (depth : Nat) :
    ∃ inner, (readValue depth).run = readValueWith inner := by
  cases depth with
  | zero => exact ⟨none, rfl⟩
  | succ depth => exact ⟨some (readValue depth), rfl⟩

theorem readValueWith_text (inner : Option (Reader Json)) (value : String) (rest : List Char) :
    readValueWith inner (quoted value ++ rest) = .ok (.text value, rest) := by
  have read := readQuoted_text value rest
  have quote : skipBlank (quoted value ++ rest) =
      '"' :: (value.toList.flatMap escaped ++ '"' :: rest) := by
    rw [quoted, List.cons_append, skipBlank_cons (by decide), List.append_assoc]
    rfl
  simp [readValueWith, quote, read]

theorem readValueWith_array {inner : Reader Json} {cs rest : List Char}
    (items : Series.array.readItems inner cs = .ok (values, rest)) :
    readValueWith (some inner) ('[' :: cs) = .ok (.array values, rest) := by
  simp [readValueWith, skipBlank_cons (by decide : blank '[' = false), items]

theorem readValueWith_object {inner : Reader Json} {cs rest : List Char}
    (items : Series.object.readItems (member inner) cs = .ok (members, rest)) :
    readValueWith (some inner) ('\x7b' :: cs) = .ok (.object (Entries.ofList members), rest) := by
  simp [readValueWith, skipBlank_cons (by decide : blank '\x7b' = false), items]

theorem bracketed_opens (layout : Layout) (depth : Nat) (first last : Char)
    (texts : List (List Char)) : ∃ rest, bracketed layout depth first last texts = first :: rest := by
  cases texts <;> exact ⟨_, rfl⟩

/-- The text of a value begins with a mark that ends no series. -/
theorem Legible.begins {value : Json} (legible : Legible depth value) (layout : Layout)
    (indent : Nat) {series : Series} (closing : series = .array ∨ series = .object) :
    Begins series (written layout indent value) := by
  cases legible with
  | null => exact ⟨'n', _, rfl, by decide, by rcases closing with rfl | rfl <;> decide⟩
  | @bool _ flag =>
    cases flag
    · exact ⟨'f', _, rfl, by decide, by rcases closing with rfl | rfl <;> decide⟩
    · exact ⟨'t', _, rfl, by decide, by rcases closing with rfl | rfl <;> decide⟩
  | text =>
    rw [written]
    exact ⟨'"', _, rfl, by decide, by rcases closing with rfl | rfl <;> decide⟩
  | array items =>
    rw [written]
    obtain ⟨rest, start⟩ := bracketed_opens layout indent '[' ']' _
    exact ⟨'[', rest, start, by decide, by rcases closing with rfl | rfl <;> decide⟩
  | object sorted members =>
    rw [written]
    obtain ⟨rest, start⟩ := bracketed_opens layout indent '\x7b' '\x7d' _
    exact ⟨'\x7b', rest, start, by decide, by rcases closing with rfl | rfl <;> decide⟩

theorem readValue_skips (depth : Nat) {blanks : List Char} (all : ∀ c ∈ blanks, blank c = true)
    (cs : List Char) : (readValue depth).run (blanks ++ cs) = (readValue depth).run cs := by
  obtain ⟨inner, run⟩ := readValue_run depth
  rw [run]
  simp only [readValueWith, skipBlank_append all]

theorem readMember_written {layout : Layout} (blanks : layout.Blank) (indent : Nat)
    {entry : String × Json}
    (takes : (readValue depth).Takes (written layout indent entry.2) entry.2) :
    (member (readValue depth)).Takes (writtenMember layout indent entry) entry := by
  intro rest
  have key := readQuoted_text entry.1
    (':' :: (layout.afterColon ++ written layout indent entry.2 ++ rest))
  have colon := skipBlank_cons (by decide : blank ':' = false)
    (layout.afterColon ++ written layout indent entry.2 ++ rest)
  have value : (readValue depth).run (layout.afterColon ++ written layout indent entry.2 ++ rest) =
      .ok (entry.2, rest) := by
    rw [List.append_assoc, readValue_skips depth blanks.afterColon, takes]
  have text : writtenMember layout indent entry ++ rest = '"' :: (entry.1.toList.flatMap escaped ++
      '"' :: ':' :: (layout.afterColon ++ written layout indent entry.2 ++ rest)) := by
    simp [writtenMember, quoted]
  change readMember (readValue depth) (writtenMember layout indent entry ++ rest) = _
  rw [text]
  simp only [readMember, key, colon, value]

/-- A value is read back from any layout; the induction is on its arrays and objects. -/
theorem readValue_written {layout : Layout} (blanks : layout.Blank) {value : Json}
    (legible : Legible depth value) (indent : Nat) :
    (readValue depth).Takes (written layout indent value) value := by
  induction legible generalizing indent with
  | @null depth =>
    obtain ⟨inner, run⟩ := readValue_run depth
    intro rest
    rw [run]
    simp [written, readValueWith, skipBlank_cons (by decide : blank 'n' = false), readWord]
  | @bool depth flag =>
    obtain ⟨inner, run⟩ := readValue_run depth
    intro rest
    rw [run]
    cases flag
    · simp [written, readValueWith, skipBlank_cons (by decide : blank 'f' = false), readWord]
    · simp [written, readValueWith, skipBlank_cons (by decide : blank 't' = false), readWord]
  | @text depth value =>
    obtain ⟨inner, run⟩ := readValue_run depth
    intro rest
    rw [run, written, readValueWith_text]
  | @array items depth legible ih =>
    obtain ⟨body, start, read⟩ := readItems_bracketed Series.array_marked blanks indent '['
      (written layout (indent + 1)) items fun item inside =>
        ⟨(legible item inside).begins layout _ (.inl rfl), ih item inside (indent + 1)⟩
    intro rest
    rw [written, writtenItems_eq_map]
    change (readValue (depth + 1)).run (bracketed layout indent '[' Series.array.close _ ++ rest) = _
    rw [start]
    exact readValueWith_array (read rest)
  | @object members depth sorted legible ih =>
    obtain ⟨body, start, read⟩ := readItems_bracketed Series.object_marked blanks indent '\x7b'
      (writtenMember layout (indent + 1)) members fun entry inside =>
        ⟨⟨'"', _, rfl, by decide, by decide⟩, readMember_written blanks _ (ih entry inside _)⟩
    intro rest
    rw [written, writtenMembers_eq_map]
    change (readValue (depth + 1)).run
      (bracketed layout indent '\x7b' Series.object.close _ ++ rest) = _
    rw [start]
    have whole := readValueWith_object (read rest)
    rw [Entries.ofList_of_sorted sorted] at whole
    exact whole

theorem read_write {layout : Layout} (blanks : layout.Blank) {value : Json}
    (legible : Legible depthLimit value) : read (write layout value) = .ok value := by
  have taken := readValue_written blanks legible 0 []
  rw [List.append_nil] at taken
  simp [read, write, readDocument, taken, skipBlank]

end Colorization.Json
