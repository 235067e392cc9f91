import Colorization.Proofs.Json.Legible
import Mathlib.Tactic.ByContra

/-! The layouts of a value differ in the gaps between its string literals and in nothing else. A walk
over a text tells for each character whether a literal is open there; without the gaps every layout is
the compact one. -/
namespace Colorization.Json

/-- Whether a string literal is open, and if so whether a backslash has just been passed. -/
inductive Literal where
  | closed | opened | escaped
deriving DecidableEq

def Literal.next : Literal → Char → Literal
  | .closed, c => if c = '"' then .opened else .closed
  | .opened, c => if c = '"' then .closed else if c = '\\' then .escaped else .opened
  | .escaped, _ => .opened

/-- The characters of a text, each with what is open before it. -/
def scanned (literal : Literal) : List Char → List (Literal × Char)
  | [] => []
  | c :: rest => (literal, c) :: scanned (literal.next c) rest

/-- Spaces, tabs and newlines. -/
def isSpacing (c : Char) : Bool := c = ' ' || c = '\t' || c = '\n'

/-- Spacing that belongs to no literal. -/
def isGap (entry : Literal × Char) : Bool := entry.1 = .closed && isSpacing entry.2

/-- What is left of a text without the gaps. -/
def stripped (text : List Char) : List Char :=
  ((scanned .closed text).filter fun entry => !isGap entry).map (·.2)

theorem scanned_append (literal : Literal) (first second : List Char) :
    scanned literal (first ++ second) =
      scanned literal first ++ scanned (first.foldl Literal.next literal) second := by
  induction first generalizing literal with
  | nil => rfl
  | cons c rest ih => exact congrArg ((literal, c) :: ·) (ih _)

theorem map_snd_scanned (literal : Literal) (text : List Char) :
    (scanned literal text).map (·.2) = text := by
  induction text generalizing literal with
  | nil => rfl
  | cons c rest ih => exact congrArg (c :: ·) (ih _)

theorem scanned_steady {literal : Literal} {text : List Char}
    (steady : ∀ c ∈ text, literal.next c = literal) :
    scanned literal text = text.map (literal, ·) ∧ text.foldl Literal.next literal = literal := by
  induction text with
  | nil => exact ⟨rfl, rfl⟩
  | cons c rest ih =>
    obtain ⟨entries, last⟩ := ih fun later member => steady later (List.mem_cons_of_mem _ member)
    simp only [scanned, List.foldl_cons, List.map_cons, steady c List.mem_cons_self]
    exact ⟨congrArg _ entries, last⟩

variable {text left text' left' : List Char}

/-- A text that leaves no literal open and has no control characters but in its gaps, and what is left
of it without them. -/
structure Strips (text left : List Char) : Prop where
  closed : text.foldl Literal.next .closed = .closed
  stripped : stripped text = left
  controls : ∀ entry ∈ scanned .closed text, entry.2.toNat < 0x20 → isGap entry = true

theorem Strips.visible (strips : Strips text left) : ∀ c ∈ left, 0x20 ≤ c.toNat := by
  intro c member
  rw [← strips.stripped, Json.stripped] at member
  obtain ⟨entry, kept, rfl⟩ := List.mem_map.mp member
  obtain ⟨inText, noGap⟩ := List.mem_filter.mp kept
  by_contra control
  rw [strips.controls entry inText (Nat.not_le.mp control)] at noGap
  cases noGap

theorem strips_nil : Strips [] [] := ⟨rfl, rfl, nofun⟩

theorem Strips.append (first : Strips text left) (second : Strips text' left') :
    Strips (text ++ text') (left ++ left') where
  closed := by rw [List.foldl_append, first.closed, second.closed]
  stripped := by
    rw [Json.stripped, scanned_append, first.closed, List.filter_append, List.map_append,
      ← first.stripped, ← second.stripped]
    rfl
  controls := by
    intro entry member
    rw [scanned_append, first.closed] at member
    rcases List.mem_append.mp member with early | late
    · exact first.controls entry early
    · exact second.controls entry late

theorem Strips.flatMap {items : List α} {text left : α → List Char}
    (each : ∀ item ∈ items, Strips (text item) (left item)) :
    Strips (items.flatMap text) (items.flatMap left) := by
  induction items with
  | nil => exact strips_nil
  | cons item rest ih =>
    have later := ih fun other member => each other (List.mem_cons_of_mem _ member)
    exact (each item List.mem_cons_self).append later

theorem strips_spacing (spacing : ∀ c ∈ text, isSpacing c = true) : Strips text [] := by
  have steady : ∀ c ∈ text, Literal.closed.next c = .closed := by
    intro c member
    have notQuote : c ≠ '"' := by
      rintro rfl
      exact absurd (spacing _ member) (by decide)
    exact if_neg notQuote
  obtain ⟨entries, closed⟩ := scanned_steady steady
  refine ⟨closed, ?_, ?_⟩
  · simpa [stripped, entries, isGap] using spacing
  · rw [entries]
    intro entry member _
    obtain ⟨c, inText, rfl⟩ := List.mem_map.mp member
    simpa [isGap] using spacing c inText

/-- A text of which nothing is a gap. -/
theorem strips_solid (closed : text.foldl Literal.next .closed = .closed)
    (solid : ∀ entry ∈ scanned .closed text, isGap entry = false ∧ 0x20 ≤ entry.2.toNat) :
    Strips text text where
  closed := closed
  stripped := by
    have kept : ∀ entry ∈ scanned .closed text, (!isGap entry) = true := by
      intro entry member
      simp [(solid entry member).1]
    rw [stripped, List.filter_eq_self.mpr kept, map_snd_scanned]
  controls := by
    intro entry member control
    exact absurd control (Nat.not_lt.mpr (solid entry member).2)

/-- No quote, no spacing and no control character. -/
def isPlain (c : Char) : Bool := c ≠ '"' && !isSpacing c && 0x20 ≤ c.toNat

theorem strips_plain (plain : text.all isPlain = true) : Strips text text := by
  have visible : ∀ c ∈ text, c ≠ '"' ∧ isSpacing c = false ∧ 0x20 ≤ c.toNat := by
    simpa [isPlain, and_assoc] using plain
  have steady : ∀ c ∈ text, Literal.closed.next c = .closed := by
    intro c member
    exact if_neg (visible c member).1
  obtain ⟨entries, closed⟩ := scanned_steady steady
  refine strips_solid closed ?_
  rw [entries]
  intro entry member
  obtain ⟨c, inText, rfl⟩ := List.mem_map.mp member
  exact ⟨by simp [isGap, (visible c inText).2.1], (visible c inText).2.2⟩

/-- What stands in an open literal: it is left open, and no control characters are in it. -/
structure Enclosed (text : List Char) : Prop where
  opened : text.foldl Literal.next .opened = .opened
  inside : ∀ entry ∈ scanned .opened text, entry.1 ≠ .closed ∧ 0x20 ≤ entry.2.toNat

theorem enclosed_singleton {c : Char} (stays : Literal.opened.next c = .opened) (visible : 0x20 ≤ c.toNat) :
    Enclosed [c] where
  opened := stays
  inside := by simpa [scanned] using visible

theorem Enclosed.append (first : Enclosed text) (second : Enclosed text') : Enclosed (text ++ text') where
  opened := by rw [List.foldl_append, first.opened, second.opened]
  inside := by
    intro entry member
    rw [scanned_append, first.opened] at member
    rcases List.mem_append.mp member with early | late
    · exact first.inside entry early
    · exact second.inside entry late

theorem enclosed_digitChar {digit : Nat} (bound : digit < 16) : Enclosed [Nat.digitChar digit] := by
  have plain : ∀ digit < 16, Literal.opened.next (Nat.digitChar digit) = .opened ∧
      0x20 ≤ (Nat.digitChar digit).toNat := by decide
  exact enclosed_singleton (plain digit bound).1 (plain digit bound).2

/-- One case for each way to write a character. -/
theorem enclosed_escaped (c : Char) : Enclosed (escaped c) := by
  unfold escaped
  iterate 7
    split
    · exact ⟨by decide, by decide⟩
  split
  next control =>
    have start : Enclosed ['\\', 'u', '0', '0'] := ⟨by decide, by decide⟩
    have high : c.toNat / 16 < 16 := by omega
    have low : c.toNat % 16 < 16 := by omega
    exact (start.append (enclosed_digitChar high)).append (enclosed_digitChar low)
  next visible =>
    have stays : Literal.opened.next c = .opened := by
      simp [Literal.next, ‹c ≠ '"'›, ‹c ≠ '\\'›]
    exact enclosed_singleton stays (Nat.not_lt.mp visible)

theorem enclosed_flatMap (cs : List Char) : Enclosed (cs.flatMap escaped) := by
  induction cs with
  | nil => exact ⟨rfl, nofun⟩
  | cons c rest ih => exact (enclosed_escaped c).append ih

theorem strips_quoted (text : String) : Strips (quoted text) (quoted text) := by
  have body := enclosed_flatMap text.toList
  have entries : scanned .closed (quoted text) =
      (.closed, '"') :: (scanned .opened (text.toList.flatMap escaped) ++ [(.opened, '"')]) := by
    simp [quoted, scanned, scanned_append, body.opened, Literal.next]
  refine strips_solid (by simp [quoted, Literal.next, body.opened]) ?_
  rw [entries]
  simp only [List.mem_cons, List.mem_append, List.not_mem_nil, or_false]
  rintro entry (rfl | inBody | rfl)
  · exact ⟨by decide, by decide⟩
  · obtain ⟨inside, visible⟩ := body.inside entry inBody
    exact ⟨by simp [isGap, inside], visible⟩
  · exact ⟨by decide, by decide⟩

/-- A layout that sets nothing but spacing between the parts of a value. -/
structure Layout.Spaced (layout : Layout) : Prop where
  line : ∀ depth, ∀ c ∈ layout.line depth, isSpacing c = true
  afterColon : ∀ c ∈ layout.afterColon, isSpacing c = true

theorem Layout.compact_spaced : Layout.compact.Spaced := ⟨nofun, nofun⟩

theorem Layout.indented_spaced {unit : List Char} (spacing : ∀ c ∈ unit, isSpacing c = true) :
    (indented unit).Spaced where
  line := by
    intro depth c member
    rcases List.mem_cons.mp member with rfl | inUnits
    · decide
    · obtain ⟨copy, isCopy, inCopy⟩ := List.mem_flatten.mp inUnits
      exact spacing c (List.eq_of_mem_replicate isCopy ▸ inCopy)
  afterColon := by
    intro c member
    cases List.mem_singleton.mp member
    decide

variable {layout : Layout}

/-- The marks around and between items are as good as any character that is seen. -/
theorem strips_bracketed (spaced : layout.Spaced) (depth depth' : Nat) {first last : Char}
    (opening : Strips [first] [first]) (closing : Strips [last] [last]) {items : List α}
    {text left : α → List Char} (each : ∀ item ∈ items, Strips (text item) (left item)) :
    Strips (bracketed layout depth first last (items.map text))
      (bracketed .compact depth' first last (items.map left)) := by
  have comma : Strips [','] [','] := strips_plain rfl
  have line (n : Nat) : Strips (layout.line n) [] := strips_spacing (spaced.line n)
  cases items with
  | nil => exact opening.append closing
  | cons item rest =>
    have head := each item List.mem_cons_self
    have others := Strips.flatMap fun other (member : other ∈ rest) =>
      comma.append ((line (depth + 1)).append (each other (List.mem_cons_of_mem _ member)))
    have whole := opening.append
      ((((line (depth + 1)).append head).append others).append (line depth) |>.append closing)
    simpa [bracketed, Layout.compact, List.flatMap_map] using whole

/-- Without its gaps every text of a value is the compact one; the induction is on its arrays and
objects. -/
theorem strips_written (spaced : layout.Spaced) {value : Json} (legible : Legible depth value)
    (indent indent' : Nat) : Strips (written layout indent value) (written .compact indent' value) := by
  induction legible generalizing indent indent' with
  | null =>
    simp only [written]
    exact strips_plain rfl
  | @bool _ flag =>
    cases flag
    all_goals
      simp only [written]
      exact strips_plain rfl
  | @text _ value => exact strips_quoted value
  | @array items _ _ ih =>
    simp only [written, writtenItems_eq_map]
    exact strips_bracketed spaced indent indent' (strips_plain rfl) (strips_plain rfl)
      fun item member => ih item member ..
  | @object members _ _ _ ih =>
    simp only [written, writtenMembers_eq_map]
    refine strips_bracketed spaced indent indent' (strips_plain rfl) (strips_plain rfl)
      fun member isMember => ?_
    have colon : Strips [':'] [':'] := strips_plain rfl
    have after : Strips layout.afterColon [] := strips_spacing spaced.afterColon
    exact (strips_quoted member.1).append
      (colon.append (after.append (ih member isMember (indent + 1) (indent' + 1))))

example : stripped (written (.indented ['\t']) 0 (.array [.text "a \" b", .null])) =
    "[\"a \\\" b\",null]".toList := by decide

end Colorization.Json
