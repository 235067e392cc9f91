import Colorization.Proofs.Yaml.Landing
import Colorization.Proofs.Yaml.Scanner
import Mathlib.Data.List.Forall2

/-! What a step of the scanner can do to the lexemes and the possible keys. Each action is a sequence of
few changes, so what these keep is kept by the whole run. -/
namespace Colorization.Yaml

namespace Kind

/-- Kinds that open or close a level of blocks or brackets. -/
def bounds : Kind → Bool
  | .blockSequenceStart | .blockMappingStart | .blockEnd => true
  | .flowSequenceStart | .flowSequenceEnd | .flowMappingStart | .flowMappingEnd => true
  | _ => false

def opensBlock : Kind → Bool
  | .blockSequenceStart | .blockMappingStart => true
  | _ => false

def opensFlow : Kind → Bool
  | .flowSequenceStart | .flowMappingStart => true
  | _ => false

def closesFlow : Kind → Bool
  | .flowSequenceEnd | .flowMappingEnd => true
  | _ => false

/-- Lexemes that only stand between documents. -/
def isStream : Kind → Bool
  | .version _ _ | .tagHandle _ _ | .documentStart | .documentEnd | .streamEnd => true
  | _ => false

end Kind

namespace Scanner

variable {s t next : Scanner} {marks : Prop} {c : Char} {rest : List Char} {kind : Kind}

/-- One change. Only where `marks` holds does a lexeme outside of brackets become a key. -/
inductive Change (marks : Prop) : Scanner → Scanner → Prop
  | pass {s : Scanner} {cursor : Cursor} (keyAllowed : Bool) (ahead : s.cursor.Ahead cursor) :
      Change marks s { s with cursor, keyAllowed }
  | push {s : Scanner} {kind : Kind} (first last : Mark) (inner : kind.bounds = false) :
      Change marks s (s.push kind first last)
  | save {s : Scanner} (required : Bool) (more : s.cursor.rest ≠ [])
      (deep : s.outerKeys = [] → s.indent ≤ s.cursor.column) :
      Change marks s { s with key := some ⟨required, s.lexemes.length, s.mark⟩ }
  | forget {s : Scanner} {key : Option PossibleKey} {outerKeys : List (Option PossibleKey)}
      (fewer : List.Forall₂ (fun old new => new = none ∨ new = old) (s.key :: s.outerKeys) (key :: outerKeys)) :
      Change marks s { s with key, outerKeys }
  | openFlow {s : Scanner} {kind : Kind} (first last : Mark) (opens : kind.opensFlow = true) :
      Change marks s { s.push kind first last with key := none, outerKeys := s.key :: s.outerKeys }
  | closeFlow {s : Scanner} {kind : Kind} (first last : Mark) (closes : kind.closesFlow = true) :
      Change marks s { s.push kind first last with key := s.outerKeys.head?.join, outerKeys := s.outerKeys.tail }
  | mark {s : Scanner} {key : PossibleKey} (isKey : s.key = some key) (free : s.outerKeys = [] → marks) :
      Change marks s (s.insertAt key.number .key key.mark)
  | openHere {s : Scanner} {kind : Kind} {column : Nat} (opens : kind.opensBlock = true)
      (outside : s.outerKeys = []) (deeper : s.indent < column) :
      Change marks s { s.push kind s.mark s.mark with
        key := none, indent := column, outerIndents := s.indent :: s.outerIndents }
  | openAtKey {s : Scanner} {key : PossibleKey} (isKey : s.key = some key) (outside : s.outerKeys = [])
      (free : marks) (deeper : s.indent < key.mark.column) :
      Change marks s { s.insertAt key.number .blockMappingStart key.mark with
        key := none, indent := key.mark.column, outerIndents := s.indent :: s.outerIndents }
  | closeBlock {s : Scanner} {outer : Int} {rest : List Int} (inside : s.outerIndents = outer :: rest)
      (outside : s.outerKeys = []) :
      Change marks s { s.push .blockEnd s.mark s.mark with indent := outer, outerIndents := rest }

def Changes (marks : Prop) : Scanner → Scanner → Prop := Relation.ReflTransGen (Change marks)

theorem Change.length_le (change : Change marks s next) : s.lexemes.length ≤ next.lexemes.length := by
  cases change <;> simp [Scanner.push, insertAt] <;> omega

theorem Changes.length_le (changes : Changes marks s next) : s.lexemes.length ≤ next.lexemes.length := by
  induction changes with
  | refl => exact Nat.le_refl _
  | tail _ change ih => exact Nat.le_trans ih change.length_le

theorem Change.ahead (change : Change marks s next) : s.cursor.Ahead next.cursor := by
  cases change with
  | pass _ ahead => exact ahead
  | _ => exact .refl _

theorem Changes.ahead (changes : Changes marks s next) : s.cursor.Ahead next.cursor := by
  induction changes with
  | refl => exact .refl _
  | tail _ change ih => exact ih.trans change.ahead

theorem Change.weaken (change : Change marks s next) : Change True s next := by
  cases change with
  | pass allowed ahead => exact .pass allowed ahead
  | push first last inner => exact .push first last inner
  | save required more deep => exact .save required more deep
  | forget fewer => exact .forget fewer
  | openFlow first last opens => exact .openFlow first last opens
  | closeFlow first last closes => exact .closeFlow first last closes
  | mark isKey free => exact .mark isKey fun _ => trivial
  | openHere opens outside deeper => exact .openHere opens outside deeper
  | openAtKey isKey outside free deeper => exact .openAtKey isKey outside trivial deeper
  | closeBlock inside outside => exact .closeBlock inside outside

theorem Changes.weaken (changes : Changes marks s next) : Changes True s next := by
  induction changes with
  | refl => exact .refl
  | tail _ change ih => exact .tail ih change.weaken

theorem Changes.trans (first : Changes marks s t) (second : Changes marks t next) : Changes marks s next :=
  Relation.ReflTransGen.trans first second

/-- Changes that take a character and add a lexeme. -/
structure Grows (marks : Prop) (s next : Scanner) : Prop where
  changes : Changes marks s next
  longer : s.lexemes.length < next.lexemes.length
  ahead : (s.cursor.skip 1).Ahead next.cursor

section Keys

/-- A possible key that is not stale. -/
def fresh (now : Mark) (key : Option PossibleKey) : Option PossibleKey := key.filter (!isStale now ·)

/-- A key that is dropped does not have to be one. -/
def Droppable (now : Mark) (key : Option PossibleKey) : Prop :=
  ∀ found ∈ key, isStale now found = true → found.required = false

theorem mapM_eq_some_iff {α β : Type} {f : α → Option β} {g : α → β} {p : α → Prop}
    (pointwise : ∀ a b, f a = some b ↔ p a ∧ b = g a) (xs : List α) (ys : List β) :
    xs.mapM f = some ys ↔ (∀ x ∈ xs, p x) ∧ ys = xs.map g := by
  induction xs generalizing ys with
  | nil => simp [eq_comm]
  | cons x xs ih =>
    simp only [List.mapM_cons, Option.bind_eq_bind, Option.bind_eq_some_iff, pointwise, ih, List.forall_mem_cons,
      List.map_cons, Option.pure_def, Option.some.injEq]
    constructor
    · rintro ⟨_, ⟨first, rfl⟩, _, ⟨later, rfl⟩, rfl⟩
      exact ⟨⟨first, later⟩, rfl⟩
    · rintro ⟨⟨first, later⟩, rfl⟩
      exact ⟨_, ⟨first, rfl⟩, _, ⟨later, rfl⟩, rfl⟩

/-- What becomes of a possible key when the scanner has gone on. -/
def refresh (now : Mark) (key : Option PossibleKey) : Option (Option PossibleKey) :=
  match key with
  | none => some none
  | some found => if isStale now found then if found.required then none else some none else some key

theorem refresh_eq_some_iff (now : Mark) (key left : Option PossibleKey) :
    refresh now key = some left ↔ Droppable now key ∧ left = fresh now key := by
  cases key with
  | none => simp [refresh, Droppable, fresh, eq_comm (a := left)]
  | some found =>
    cases stale : isStale now found with
    | false => simp [refresh, Droppable, fresh, Option.filter, stale, eq_comm (a := left)]
    | true =>
      cases required : found.required <;>
        simp [refresh, Droppable, fresh, Option.filter, stale, required, eq_comm (a := left)]

/-- A key that is not stale is of the line at hand. -/
theorem line_le_of_not_isStale {now : Mark} {key : PossibleKey} (fresh : isStale now key = false) :
    now.line ≤ key.mark.line := by
  simp only [isStale, Bool.or_eq_false_iff, decide_eq_false_iff_not, Nat.not_lt] at fresh
  exact fresh.1

/-- Stale keys are dropped, unless one of them is required. -/
theorem dropStale_eq_some_iff : s.dropStale = some t ↔
    (∀ key ∈ s.key :: s.outerKeys, Droppable s.mark key) ∧
      t = { s with key := fresh s.mark s.key, outerKeys := s.outerKeys.map (fresh s.mark) } := by
  have same : s.dropStale = (refresh s.mark s.key).bind fun key =>
      (s.outerKeys.mapM (refresh s.mark)).bind fun outerKeys => some { s with key, outerKeys } := rfl
  simp only [same, Option.bind_eq_some_iff, refresh_eq_some_iff,
    mapM_eq_some_iff (refresh_eq_some_iff s.mark), List.forall_mem_cons, Option.some.injEq]
  constructor
  · rintro ⟨_, ⟨first, rfl⟩, _, ⟨later, rfl⟩, rfl⟩
    exact ⟨⟨first, later⟩, rfl⟩
  · rintro ⟨⟨first, later⟩, rfl⟩
    exact ⟨_, ⟨first, rfl⟩, _, ⟨later, rfl⟩, rfl⟩

theorem cursor_dropStale (dropped : s.dropStale = some t) : t.cursor = s.cursor := by
  obtain ⟨-, rfl⟩ := dropStale_eq_some_iff.mp dropped
  rfl

theorem dropKey_eq_some_iff : s.dropKey = some t ↔
    (∀ key ∈ s.key, key.required = false) ∧ t = { s with key := none } := by
  obtain ⟨cursor, indent, outerIndents, _ | key, outerKeys, allowed, lexemes⟩ := s
  · simp [dropKey, eq_comm (b := t)]
  · cases required : key.required <;> simp [dropKey, required, eq_comm (b := t)]

/-- What comes next may be a key only where a key is allowed. -/
theorem saveKey_eq_some_iff : s.saveKey = some t ↔
    (s.keyAllowed = true → ∀ key ∈ s.key, key.required = false) ∧
      t = if s.keyAllowed then
        { s with key := some ⟨!s.inFlow && s.indent = s.cursor.column, s.lexemes.length, s.mark⟩ } else s := by
  cases allowed : s.keyAllowed with
  | false => simp [saveKey, allowed, eq_comm (b := t)]
  | true =>
    simp only [saveKey, allowed, if_true, Option.bind_eq_bind, Option.bind_eq_some_iff, dropKey_eq_some_iff,
      Option.pure_def, Option.some.injEq, true_imp_iff]
    constructor
    · rintro ⟨_, ⟨dropped, rfl⟩, rfl⟩
      exact ⟨dropped, rfl⟩
    · rintro ⟨dropped, rfl⟩
      exact ⟨_, ⟨dropped, rfl⟩, rfl⟩

end Keys

section Actions

theorem Changes.grows (changes : Changes marks s t) (same : t.cursor = s.cursor) (grows : Grows marks t next) :
    Grows marks s next :=
  ⟨changes.trans grows.changes, Nat.lt_of_le_of_lt changes.length_le grows.longer, same ▸ grows.ahead⟩

theorem grows_push (allowed : Bool) {cursor : Cursor} (first last : Mark) (inner : kind.bounds = false)
    (ahead : (s.cursor.skip 1).Ahead cursor) :
    Grows marks s { (s.allow allowed).push kind first last with cursor } :=
  ⟨.tail (.single (.pass allowed ((Cursor.ahead_skip s.cursor 1).trans ahead))) (.push first last inner),
    Nat.lt_succ_self _, ahead⟩

theorem grows_take (allowed : Bool) (count : Nat) (inner : kind.bounds = false) :
    Grows marks s ((s.allow allowed).take (count + 1) kind) :=
  grows_push allowed _ _ inner (Cursor.ahead_skip_succ s.cursor count)

theorem changes_noKey (s : Scanner) : Changes marks s { s with key := none } :=
  .single (.forget (.cons (.inl rfl) (List.forall₂_same.mpr fun _ _ => .inr rfl)))

theorem changes_dropKey (dropped : s.dropKey = some t) : Changes marks s t := by
  obtain ⟨-, rfl⟩ := dropKey_eq_some_iff.mp dropped
  exact changes_noKey s

theorem changes_dropStale (dropped : s.dropStale = some t) : Changes marks s t := by
  have fewer (key : Option PossibleKey) : fresh s.mark key = none ∨ fresh s.mark key = key := by
    cases key with
    | none => exact .inl rfl
    | some found => cases stale : isStale s.mark found <;> simp [fresh, Option.filter, stale]
  obtain ⟨-, rfl⟩ := dropStale_eq_some_iff.mp dropped
  refine .single (.forget (.cons (fewer _) ?_))
  rw [List.forall₂_map_right_iff]
  exact List.forall₂_same.mpr fun key _ => fewer key

/-- The scanner is in front of a lexeme, and the blocks that its line closes are closed. -/
def Ready (s : Scanner) : Prop :=
  s.cursor.rest ≠ [] ∧ (s.outerKeys = [] → s.indent ≤ s.cursor.column)

theorem changes_saveKey (ready : s.Ready) (saved : s.saveKey = some t) : Changes marks s t := by
  obtain ⟨-, rfl⟩ := saveKey_eq_some_iff.mp saved
  split
  · exact .single (.save _ ready.1 ready.2)
  · exact .refl

theorem changes_close (outside : s.outerKeys = []) (column : Int) (outer : List Int)
    (same : s.outerIndents = outer) : Changes marks s (closeBlocks.close column s outer) := by
  induction outer generalizing s with
  | nil => exact .refl
  | cons first outer ih =>
    rw [closeBlocks.close]
    split
    · exact .head (.closeBlock same outside) (ih outside rfl)
    · exact .refl

theorem changes_closeBlocks (s : Scanner) (column : Int) : Changes marks s (s.closeBlocks column) := by
  unfold closeBlocks
  split
  · exact .refl
  next outside => exact changes_close (by simpa [inFlow] using outside) column _ rfl

/-- A possible key does not outlive the mark that opens a new line of its block. -/
theorem changes_openAt (opens : kind.opensBlock = true) (opened : s.openAt kind = some t) :
    Changes marks s { t with key := none } := by
  simp only [openAt, openBlock] at opened
  split at opened
  · cases opened
    exact changes_noKey s
  next outside =>
  split at opened
  · split at opened
    next opening =>
      simp only [Bool.and_eq_true, decide_eq_true_eq] at opening
      cases opened
      have here : s.insertAt s.lexemes.length kind s.mark = s.push kind s.mark s.mark := by
        simp [insertAt, push]
      rw [here]
      exact .single (.openHere opens (by simpa [inFlow] using outside) opening.2)
    next =>
      cases opened
      exact changes_noKey s
  · cases opened

theorem versionDirective?_kind {cursor later : Cursor}
    (read : versionDirective? cursor = some (kind, later)) : ∃ major minor, kind = .version major minor := by
  simp only [versionDirective?, Option.bind_eq_bind] at read
  obtain ⟨⟨major, middle⟩, -, read⟩ := Option.bind_eq_some_iff.mp read
  split at read
  · cases read
  · obtain ⟨⟨minor, last⟩, -, read⟩ := Option.bind_eq_some_iff.mp read
    cases read
    exact ⟨major, minor, rfl⟩

theorem tagDirective?_kind {cursor later : Cursor} (read : tagDirective? cursor = some (kind, later)) :
    ∃ handle uri, kind = .tagHandle handle uri := by
  simp only [tagDirective?, Option.bind_eq_bind] at read
  obtain ⟨⟨handle, middle⟩, -, read⟩ := Option.bind_eq_some_iff.mp read
  split at read
  · cases read
  split at read
  · cases read
  obtain ⟨⟨uri, last⟩, -, read⟩ := Option.bind_eq_some_iff.mp read
  split at read
  · cases read
  · cases read
    exact ⟨_, _, rfl⟩

theorem directive?_kind {cursor later : Cursor} (read : directive? cursor = some (kind, later)) :
    (∃ major minor, kind = .version major minor) ∨ ∃ handle uri, kind = .tagHandle handle uri := by
  simp only [directive?, Option.bind_eq_bind] at read
  split at read
  · cases read
  split at read
  · obtain ⟨⟨kind, middle⟩, isKind, read⟩ := Option.bind_eq_some_iff.mp read
    obtain ⟨last, -, read⟩ := Option.bind_eq_some_iff.mp read
    cases read
    exact .inl (versionDirective?_kind isKind)
  split at read
  · obtain ⟨⟨kind, middle⟩, isKind, read⟩ := Option.bind_eq_some_iff.mp read
    obtain ⟨last, -, read⟩ := Option.bind_eq_some_iff.mp read
    cases read
    exact .inr (tagDirective?_kind isKind)
  · cases read

theorem cursor_dropKey (dropped : s.dropKey = some t) : t.cursor = s.cursor := by
  obtain ⟨-, rfl⟩ := dropKey_eq_some_iff.mp dropped
  rfl

theorem cursor_saveKey (saved : s.saveKey = some t) : t.cursor = s.cursor := by
  obtain ⟨-, rfl⟩ := saveKey_eq_some_iff.mp saved
  split <;> rfl

theorem cursor_openBlock (s : Scanner) (column number : Nat) (kind : Kind) (mark : Mark) :
    (s.openBlock column number kind mark).cursor = s.cursor := by
  unfold openBlock
  split <;> rfl

theorem cursor_openAt (opened : s.openAt kind = some t) : t.cursor = s.cursor := by
  simp only [openAt] at opened
  repeat' split at opened
  · cases opened
    rfl
  · cases opened
    exact cursor_openBlock _ _ _ _ _
  · cases opened

theorem grows_directive (read : s.directive = some next) : Grows marks s next := by
  simp only [directive, Option.bind_eq_bind] at read
  obtain ⟨t, dropped, read⟩ := Option.bind_eq_some_iff.mp read
  obtain ⟨⟨kind, cursor⟩, isDirective, read⟩ := Option.bind_eq_some_iff.mp read
  cases read
  refine ((changes_closeBlocks s (-1)).trans (changes_dropKey dropped)).grows
    ((cursor_dropKey dropped).trans (cursor_closeBlocks s (-1))) (grows_push false _ _ ?_ (ahead_directive? isDirective))
  obtain ⟨_, _, rfl⟩ | ⟨_, _, rfl⟩ := directive?_kind isDirective <;> rfl

theorem grows_documentMark (read : s.documentMark kind = some next) (inner : kind.bounds = false) :
    Grows marks s next := by
  simp only [documentMark, Option.bind_eq_bind] at read
  obtain ⟨t, dropped, read⟩ := Option.bind_eq_some_iff.mp read
  cases read
  exact ((changes_closeBlocks s (-1)).trans (changes_dropKey dropped)).grows
    ((cursor_dropKey dropped).trans (cursor_closeBlocks s (-1))) (grows_take false 2 inner)

theorem grows_openFlow (ready : s.Ready) (read : s.openFlow kind = some next) (opens : kind.opensFlow = true) :
    Grows marks s next := by
  simp only [openFlow, Option.bind_eq_bind] at read
  obtain ⟨t, saved, read⟩ := Option.bind_eq_some_iff.mp read
  cases read
  exact (changes_saveKey ready saved).grows (cursor_saveKey saved)
    ⟨.tail (.single (.pass true (Cursor.ahead_skip t.cursor 1))) (.openFlow _ _ opens), Nat.lt_succ_self _, .refl _⟩

theorem grows_closeFlow (read : s.closeFlow kind = some next) (closes : kind.closesFlow = true) :
    Grows marks s next := by
  simp only [closeFlow, Option.bind_eq_bind] at read
  obtain ⟨t, dropped, read⟩ := Option.bind_eq_some_iff.mp read
  cases read
  obtain ⟨-, rfl⟩ := dropKey_eq_some_iff.mp dropped
  have path : Grows marks s _ :=
    ⟨.tail (.single (.pass false (Cursor.ahead_skip s.cursor 1)))
      (.closeFlow s.mark (s.cursor.skip 1).mark closes), Nat.lt_succ_self _, .refl _⟩
  obtain ⟨cursor, indent, outerIndents, key, _ | ⟨outerKey, outerKeys⟩, allowed, lexemes⟩ := s
  · exact path
  · cases outerKey <;> exact path

theorem grows_flowEntry (read : s.flowEntry = some next) : Grows marks s next := by
  simp only [flowEntry, Option.bind_eq_bind] at read
  obtain ⟨t, dropped, read⟩ := Option.bind_eq_some_iff.mp read
  cases read
  exact (changes_dropKey dropped).grows (cursor_dropKey dropped) (grows_take true 0 rfl)

theorem grows_blockEntry (read : s.blockEntry = some next) : Grows marks s next := by
  simp only [blockEntry, Option.bind_eq_bind] at read
  obtain ⟨t, opened, read⟩ := Option.bind_eq_some_iff.mp read
  obtain ⟨u, dropped, read⟩ := Option.bind_eq_some_iff.mp read
  cases read
  obtain ⟨-, rfl⟩ := dropKey_eq_some_iff.mp dropped
  have same := cursor_openAt opened
  exact (changes_openAt rfl opened).grows same (grows_take true 0 rfl)

theorem grows_explicitKey (read : s.explicitKey = some next) : Grows marks s next := by
  simp only [explicitKey, Option.bind_eq_bind] at read
  obtain ⟨t, opened, read⟩ := Option.bind_eq_some_iff.mp read
  obtain ⟨u, dropped, read⟩ := Option.bind_eq_some_iff.mp read
  cases read
  obtain ⟨-, rfl⟩ := dropKey_eq_some_iff.mp dropped
  have same := cursor_openAt opened
  exact (changes_openAt rfl opened).grows same (grows_take _ 0 rfl)

/-- The colon behind a possible key. -/
theorem changes_openBlock {key : PossibleKey} (isKey : s.key = some key) (free : s.outerKeys = [] → marks) :
    Changes marks s { (s.insertAt key.number .key key.mark).openBlock key.mark.column key.number
      .blockMappingStart key.mark with key := none } := by
  unfold openBlock
  split
  next opens =>
    obtain ⟨outside, deeper⟩ := Bool.and_eq_true_iff.mp opens
    have outside : s.outerKeys = [] := by simpa [inFlow, insertAt] using outside
    exact .tail (.single (.mark isKey free)) (.openAtKey isKey outside (free outside) (of_decide_eq_true deeper))
  next => exact .trans (.single (.mark isKey free)) (changes_noKey _)

theorem key_openAt (opened : s.openAt kind = some t) : t.key = s.key := by
  simp only [openAt, openBlock] at opened
  repeat' split at opened
  all_goals cases opened
  all_goals rfl

theorem grows_value (free : s.outerKeys = [] → marks) (read : s.value = some next) : Grows marks s next := by
  unfold value at read
  split at read
  next key isKey =>
    cases read
    exact (changes_openBlock isKey free).grows (cursor_openBlock _ _ _ _ _) (grows_take false 0 rfl)
  next noKey =>
    simp only [Option.bind_eq_bind] at read
    obtain ⟨t, opened, read⟩ := Option.bind_eq_some_iff.mp read
    cases read
    have same : { t with key := none } = t := by rw [← noKey, ← key_openAt opened]
    have changes : Changes marks s _ := changes_openAt rfl opened
    rw [same] at changes
    exact changes.grows (cursor_openAt opened) (grows_take _ 0 rfl)

theorem grows_named (ready : s.Ready) {kind : String → Kind} (inner : ∀ name, (kind name).bounds = false)
    (read : s.named kind = some next) : Grows marks s next := by
  simp only [named, Option.bind_eq_bind] at read
  obtain ⟨t, saved, read⟩ := Option.bind_eq_some_iff.mp read
  obtain ⟨⟨name, cursor⟩, isName, read⟩ := Option.bind_eq_some_iff.mp read
  cases read
  exact (changes_saveKey ready saved).grows (cursor_saveKey saved)
    (grows_push false _ _ (inner name) (ahead_anchorName? isName))

theorem grows_tag (ready : s.Ready) (read : s.tag = some next) : Grows marks s next := by
  simp only [tag, Option.bind_eq_bind] at read
  obtain ⟨t, saved, read⟩ := Option.bind_eq_some_iff.mp read
  obtain ⟨⟨handle, suffix, cursor⟩, isTag, read⟩ := Option.bind_eq_some_iff.mp read
  split at read
  · cases read
    exact (changes_saveKey ready saved).grows (cursor_saveKey saved) (grows_push false _ _ rfl (ahead_tag? isTag))
  · cases read

theorem grows_scalar (plain allowed : Bool) {scanned : Scanned} (ahead : (s.cursor.skip 1).Ahead scanned.cursor) :
    Grows marks s (s.scalar plain allowed scanned) :=
  grows_push allowed _ _ rfl ahead

theorem grows_blockText {isLiteral : Bool} (read : s.blockText isLiteral = some next) : Grows marks s next := by
  simp only [blockText, Option.bind_eq_bind] at read
  obtain ⟨t, dropped, read⟩ := Option.bind_eq_some_iff.mp read
  obtain ⟨scanned, isBlock, read⟩ := Option.bind_eq_some_iff.mp read
  cases read
  exact (changes_dropKey dropped).grows (cursor_dropKey dropped)
    (grows_scalar false true (ahead_block? isBlock).1)

theorem grows_quotedText (ready : s.Ready) {scan : Mark → List Char → Option Scanned}
    (ahead : ∀ {mark cs scanned}, scan mark cs = some scanned → (⟨mark, cs⟩ : Cursor).Ahead scanned.cursor)
    (read : s.quotedText scan = some next) : Grows marks s next := by
  simp only [quotedText, Option.bind_eq_bind] at read
  obtain ⟨t, saved, read⟩ := Option.bind_eq_some_iff.mp read
  obtain ⟨scanned, isQuoted, read⟩ := Option.bind_eq_some_iff.mp read
  cases read
  exact (changes_saveKey ready saved).grows (cursor_saveKey saved) (grows_scalar false false (ahead isQuoted))

/-- A plain text has a character at least. -/
structure BeginsText (flow : Bool) (mark : Mark) (c : Char) (rest : List Char) : Prop where
  notBlank : isBlank c = false
  inLine : isBreak c = false
  unmarked : Cursor.atAnyDocumentMark ⟨mark, c :: rest⟩ = false
  noValue : ¬(c = ':' && gapNext rest) = true
  noMark : ¬(flow && isFlowMark c) = true

theorem BeginsText.ahead {flow : Bool} {indent : Int} {mark : Mark} (begins : BeginsText flow mark c rest)
    {scanned : Scanned} (read : plainFrom flow indent [] .none mark (c :: rest) = some scanned) :
    (⟨mark.advance c, rest⟩ : Cursor).Ahead scanned.cursor := by
  obtain ⟨notBlank, inLine, unmarked, noValue, noMark⟩ := begins
  rw [plainFrom] at read
  simp only [notBlank, inLine, unmarked, if_neg noValue, if_neg noMark, Pending.isNone_none, Bool.not_true,
    Bool.false_and, Bool.false_eq_true, if_false] at read
  split at read
  · cases read
  · exact ahead_plainFrom read

theorem grows_plainText (ready : s.Ready) (here : s.cursor.rest = c :: rest)
    (begins : BeginsText s.inFlow s.mark c rest) (read : s.plainText = some next) : Grows marks s next := by
  simp only [plainText, Option.bind_eq_bind] at read
  obtain ⟨t, saved, read⟩ := Option.bind_eq_some_iff.mp read
  obtain ⟨scanned, isPlain, read⟩ := Option.bind_eq_some_iff.mp read
  cases read
  have same : t.cursor = s.cursor ∧ t.inFlow = s.inFlow := by
    obtain ⟨-, rfl⟩ := saveKey_eq_some_iff.mp saved
    split <;> exact ⟨rfl, rfl⟩
  refine (changes_saveKey ready saved).grows same.1 (grows_scalar true _ ?_)
  rw [Scanner.mark, same.1, same.2, here] at isPlain
  have first : t.cursor.skip 1 = ⟨s.cursor.mark.advance c, rest⟩ := by simp [same.1, Cursor.skip, here]
  exact first ▸ begins.ahead isPlain

theorem decided {α : Type} {p goal : Prop} [Decidable p] {yes no : Option α} {result : α}
    (read : (if p then yes else no) = some result) (onYes : p → yes = some result → goal)
    (onNo : ¬p → no = some result → goal) : goal := by
  by_cases which : p
  · exact onYes which ((if_pos which).symm.trans read)
  · exact onNo which ((if_neg which).symm.trans read)

/-- Outside of brackets only a colon makes a key of a lexeme. -/
theorem lexeme_grows (ready : s.Ready) (here : s.cursor.rest = c :: rest) (read : s.lexeme c rest = some next) :
    Grows (c = ':' ∧ s.outerKeys = []) s next := by
  unfold lexeme at read
  refine decided read (fun _ => grows_directive) fun _ read => ?_
  refine decided read (fun _ read => grows_documentMark read rfl) fun noStart read => ?_
  refine decided read (fun _ read => grows_documentMark read rfl) fun noEnd read => ?_
  refine decided read (fun _ read => grows_openFlow ready read rfl) fun _ read => ?_
  refine decided read (fun _ read => grows_openFlow ready read rfl) fun _ read => ?_
  refine decided read (fun _ read => grows_closeFlow read rfl) fun _ read => ?_
  refine decided read (fun _ read => grows_closeFlow read rfl) fun _ read => ?_
  refine decided read (fun _ => grows_flowEntry) fun _ read => ?_
  refine decided read (fun _ => grows_blockEntry) fun _ read => ?_
  refine decided read (fun _ => grows_explicitKey) fun _ read => ?_
  refine decided read (fun colon => grows_value fun outside => ⟨by simp_all, outside⟩) fun noColon read => ?_
  refine decided read (fun _ => grows_named ready fun _ => rfl) fun _ read => ?_
  refine decided read (fun _ => grows_named ready fun _ => rfl) fun _ read => ?_
  refine decided read (fun _ => grows_tag ready) fun _ read => ?_
  refine decided read (fun _ => grows_blockText) fun _ read => ?_
  refine decided read (fun _ => grows_blockText) fun _ read => ?_
  refine decided read (fun _ => grows_quotedText ready ahead_singleQuotedFrom) fun _ read => ?_
  refine decided read (fun _ => grows_quotedText ready ahead_doubleQuotedFrom) fun _ read => ?_
  refine decided read (fun begins => grows_plainText ready here ?_) fun _ => nofun
  have noGap : isGap c = false := by
    simp only [beginsPlain, Bool.or_eq_true, Bool.and_eq_true, Bool.not_eq_true', Bool.or_eq_false_iff,
      decide_eq_true_eq] at begins
    rcases begins with (⟨noGap, -⟩ | ⟨rfl, -⟩) | ⟨⟨-, rfl | rfl⟩, -⟩
    · exact noGap
    all_goals rfl
  simp only [isGap, Bool.or_eq_false_iff] at noGap
  refine ⟨noGap.1.1, noGap.1.2, ?_, ?_, ?_⟩
  · rw [Cursor.atAnyDocumentMark, Scanner.mark, ← here]
    simp [noStart, noEnd]
  · simp_all
  · simp_all [isFlowMark]

end Actions

end Scanner

end Colorization.Yaml
