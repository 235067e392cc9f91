import Colorization.Proofs.Yaml.Blocks
import Colorization.Proofs.Yaml.Sound

/-! The scanner of a text, and the scanner of a longer text at the same place. They hold the same
lexemes, in front of which each has its own, and the same blocks above those that are open where the text
stands. -/
namespace Colorization.Yaml

namespace Scanner

/-- Where a text stands in a longer one: what the scanner holds in front of it, and the column of
its own entries. -/
structure Site where
  spot : Spot
  column : Nat
  indent : Int
  outer : List Int
  lexemes : List Lexeme
  deep : indent ≤ column
  shallow : spot.column ≤ column

variable {site : Site} {front base : List Lexeme} {s c t u : Scanner} {kind : Kind}

/-- A possible key in another place. One without lexemes in front of it may be required in a longer
text only. -/
structure KeyMoved (spot : Spot) (front base : Nat) (found found' : PossibleKey) : Prop where
  number : ∃ n, found.number = n + front ∧ found'.number = n + base
  mark : found'.mark = found.mark.moved spot
  required : found'.required = found.required ∨ found.number = 0

/-- The blocks of the two scanners, before and after the text has opened its own. -/
inductive Levels (site : Site) : List Lexeme → List Lexeme → Int → List Int → Int → List Int → Prop
  | early : Levels site [] site.lexemes (-1) [] site.indent site.outer
  | late {first : Lexeme} {base : List Lexeme} {indent indent' : Int} {outer outer' : List Int} (inner : List Int)
      (opens : first.kind = .blockMappingStart)
      (told : kinds base = kinds site.lexemes ++ opening site.indent site.column)
      (alone : indent :: outer = inner ++ [(site.column : Int), -1])
      (within : indent' :: outer' = inner ++ (site.column : Int) :: outerOf site.indent site.outer site.column) :
      Levels site [first] base indent outer indent' outer'

structure Beside (site : Site) (front base : List Lexeme) (s c : Scanner) : Prop where
  cursor : c.cursor = s.cursor.landed site.spot
  allowed : c.keyAllowed = s.keyAllowed
  key : Option.Rel (KeyMoved site.spot front.length base.length) s.key c.key
  outerKeys : List.Forall₂ (Option.Rel (KeyMoved site.spot front.length base.length)) s.outerKeys c.outerKeys
  lexemes : ∃ own own', s.lexemes = own ++ front ∧ c.lexemes = own' ++ base ∧
    own.map (·.kind) = own'.map (·.kind)
  levels : Levels site front base s.indent s.outerIndents c.indent c.outerIndents
  ended : s.cursor.rest = [] → s.inFlow = false → s.keyAllowed = true

theorem free_of_keyMoved {spot : Spot} {front base : Nat} {old new : Option PossibleKey}
    (pair : Option.Rel (KeyMoved spot front base) old new) (safe : ∀ found ∈ old, found.number ≠ 0)
    (free : ∀ found ∈ old, found.required = false) : ∀ found ∈ new, found.required = false := by
  cases pair with
  | none => exact nofun
  | some moved =>
    rintro _ ⟨⟩
    exact (moved.required.resolve_right (safe _ rfl)).trans (free _ rfl)

namespace Beside

theorem inFlow (beside : Beside site front base s c) : c.inFlow = s.inFlow := by
  have same := beside.outerKeys.length_eq
  cases keys : s.outerKeys <;> cases keys' : c.outerKeys <;> simp_all [Scanner.inFlow]

theorem key_none (beside : Beside site front base s c) (noKey : s.key = none) : c.key = none := by
  have key := beside.key
  rw [noKey] at key
  generalize c.key = key' at key ⊢
  cases key
  rfl

theorem key_some (beside : Beside site front base s c) {found : PossibleKey} (isKey : s.key = some found) :
    ∃ found', c.key = some found' ∧ KeyMoved site.spot front.length base.length found found' := by
  have key := beside.key
  rw [isKey] at key
  generalize c.key = key' at key ⊢
  cases key with
  | some moved => exact ⟨_, rfl, moved⟩

theorem moved (beside : Beside site front base s c) (some : s.cursor.rest ≠ []) :
    c.cursor = s.cursor.moved site.spot :=
  beside.cursor.trans (Cursor.landed_of_ne_nil some)

theorem allow (beside : Beside site front base s c) (here : s.cursor.rest ≠ []) (allowed : Bool) :
    Beside site front base (s.allow allowed) (c.allow allowed) :=
  { beside with allowed := rfl, ended := fun done => absurd done here }

theorem push (beside : Beside site front base s c) (kind : Kind) (first last first' last' : Mark) :
    Beside site front base (s.push kind first last) (c.push kind first' last') where
  __ := beside
  lexemes := by
    obtain ⟨own, own', alone, within, same⟩ := beside.lexemes
    exact ⟨⟨kind, first, last⟩ :: own, ⟨kind, first', last'⟩ :: own', by simp [Scanner.push, alone],
      by simp [Scanner.push, within], by simp [same]⟩

theorem move (beside : Beside site front base s c) {cursor cursor' : Cursor}
    (same : cursor' = cursor.landed site.spot) (ended : cursor.rest = [] → s.inFlow = false → s.keyAllowed = true) :
    Beside site front base { s with cursor } { c with cursor := cursor' } :=
  { beside with cursor := same, ended := ended }

theorem take (beside : Beside site front base s c) {count : Nat} (kind : Kind)
    (more : (s.cursor.skip count).rest ≠ []) : Beside site front base (s.take count kind) (c.take count kind) := by
  have here : s.cursor.rest ≠ [] := by
    intro done
    have shorter := (Cursor.ahead_skip s.cursor count).length_le
    rw [done] at shorter
    exact more (List.length_eq_zero_iff.mp (Nat.le_zero.mp shorter))
  refine (beside.push kind _ _ _ _).move ?_ fun done => absurd done more
  rw [beside.moved here, Cursor.skip_moved more, Cursor.landed_of_ne_nil more]

theorem insertAt (beside : Beside site front base s c) {number number' : Nat}
    (pair : ∃ n, number = n + front.length ∧ number' = n + base.length) (kind : Kind) (mark mark' : Mark) :
    Beside site front base (s.insertAt number kind mark) (c.insertAt number' kind mark') where
  __ := beside
  lexemes := by
    obtain ⟨own, own', alone, within, same⟩ := beside.lexemes
    obtain ⟨n, number, number'⟩ := pair
    have length : own.length = own'.length := by simpa using congrArg List.length same
    have before : (own ++ front).length - (n + front.length) = own.length - n := by
      rw [List.length_append]
      omega
    have before' : (own' ++ base).length - (n + base.length) = own.length - n := by
      rw [List.length_append]
      omega
    refine ⟨own.take (own.length - n) ++ ⟨kind, mark, mark⟩ :: own.drop (own.length - n),
      own'.take (own.length - n) ++ ⟨kind, mark', mark'⟩ :: own'.drop (own.length - n), ?_, ?_, ?_⟩
    · simp only [Scanner.insertAt, number, alone, before]
      rw [List.take_append_of_le_length (Nat.sub_le _ _), List.drop_append_of_le_length (Nat.sub_le _ _)]
      simp
    · simp only [Scanner.insertAt, number', within, before']
      rw [List.take_append_of_le_length (by omega), List.drop_append_of_le_length (by omega)]
      simp
    · simp [same, List.map_take, List.map_drop]

theorem length (beside : Beside site front base s c) :
    ∃ n, s.lexemes.length = n + front.length ∧ c.lexemes.length = n + base.length := by
  obtain ⟨own, own', alone, within, same⟩ := beside.lexemes
  have length : own.length = own'.length := by simpa using congrArg List.length same
  exact ⟨own.length, by simp [alone], by simp [within, length]⟩

theorem noKey (beside : Beside site front base s c) :
    Beside site front base { s with key := none } { c with key := none } :=
  { beside with key := .none }

theorem openFlow (beside : Beside site front base s c) :
    Beside site front base { s with key := none, outerKeys := s.key :: s.outerKeys }
      { c with key := none, outerKeys := c.key :: c.outerKeys } :=
  { beside with key := .none, outerKeys := .cons beside.key beside.outerKeys, ended := fun _ => nofun }

theorem dropKey (beside : Beside site front base s c) (safe : ∀ found ∈ s.key, found.number ≠ 0)
    (dropped : s.dropKey = some t) : ∃ u, c.dropKey = some u ∧ Beside site front base t u := by
  obtain ⟨free, rfl⟩ := dropKey_eq_some_iff.mp dropped
  exact ⟨_, dropKey_eq_some_iff.mpr ⟨free_of_keyMoved beside.key safe free, rfl⟩, beside.noKey⟩

theorem saveKey (beside : Beside site front base s c) (here : s.cursor.rest ≠ [])
    (safe : s.keyAllowed = true → ∀ found ∈ s.key, found.number ≠ 0)
    (same : s.keyAllowed = true → s.inFlow = false → s.indent = c.indent ∨ s.lexemes = [])
    (saved : s.saveKey = some t) : ∃ u, c.saveKey = some u ∧ Beside site front base t u := by
  obtain ⟨free, rfl⟩ := saveKey_eq_some_iff.mp saved
  refine ⟨_, saveKey_eq_some_iff.mpr ⟨fun allowed => ?_, rfl⟩, ?_⟩
  · rw [beside.allowed] at allowed
    exact free_of_keyMoved beside.key (safe allowed) (free allowed)
  by_cases allowed : s.keyAllowed = true
  · have allowed' : c.keyAllowed = true := beside.allowed.trans allowed
    simp only [if_pos allowed, if_pos allowed']
    refine { beside with key := .some ⟨?_, ?_, ?_⟩ }
    · exact beside.length
    · rw [Scanner.mark, beside.moved here]
      rfl
    · rw [beside.inFlow, beside.moved here]
      cases flow : s.inFlow with
      | true => exact .inl rfl
      | false =>
        rcases same allowed flow with level | nothing
        · rw [level]
          exact .inl rfl
        · exact .inr (by simp [nothing])
  · have allowed' : ¬c.keyAllowed = true := beside.allowed ▸ allowed
    simp only [if_neg allowed, if_neg allowed']
    exact beside

/-- The current block of the text is the same in both places. -/
theorem indent {first : Lexeme} (beside : Beside site [first] base s c) : c.indent = s.indent := by
  cases beside.levels with
  | late inner opens told alone within =>
    cases inner with
    | nil => exact (List.cons.inj within).1.trans (List.cons.inj alone).1.symm
    | cons deepest inner => exact (List.cons.inj within).1.trans (List.cons.inj alone).1.symm

theorem column_le {first : Lexeme} (beside : Beside site [first] base s c) (sound : s.Sound) :
    (site.column : Int) ≤ s.indent := by
  have sorted := sound.sorted
  cases beside.levels with
  | late inner opens told alone within =>
    rw [alone] at sorted
    cases inner with
    | nil => exact Int.le_of_eq (List.cons.inj alone).1.symm
    | cons deepest inner =>
      rw [(List.cons.inj alone).1]
      exact Int.le_of_lt ((List.pairwise_cons.mp sorted).1 _ (by simp))

/-- Within its own blocks the text opens them in both places. -/
theorem openBlock {first : Lexeme} (beside : Beside site [first] base s c) {number number' : Nat}
    (pair : ∃ n, number = n + [first].length ∧ number' = n + base.length) (column : Nat) (kind : Kind)
    (mark mark' : Mark) : Beside site [first] base (s.openBlock column number kind mark)
      (c.openBlock column number' kind mark') := by
  simp only [Scanner.openBlock, beside.inFlow, beside.indent]
  split
  · refine { beside.insertAt pair kind mark mark' with levels := ?_ }
    cases beside.levels with
    | late inner opens told alone within =>
      exact .late (column :: inner) opens told (by rw [alone]; rfl) (by rw [← beside.indent, within]; rfl)
  · exact beside

end Beside

end Scanner

end Colorization.Yaml
