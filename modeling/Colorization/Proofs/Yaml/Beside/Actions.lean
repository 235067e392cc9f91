import Colorization.Proofs.Yaml.Beside

/-! The actions of the two scanners. -/
namespace Colorization.Yaml

namespace Scanner

variable {site : Site} {front base : List Lexeme} {s c t u next : Scanner} {kind : Kind}

/-- What the one scanner does the other does too. -/
def Follows (site : Site) (front base : List Lexeme) (first second : Option Scanner) : Prop :=
  ∀ next, first = some next → ∃ next', second = some next' ∧ Beside site front base next next'

/-- The scanners are in front of a character that ends no line. -/
structure Facing (site : Site) (front base : List Lexeme) (s c : Scanner) : Prop extends
    Beside site front base s c where
  ends : EndsLine s.cursor.rest
  after : EndsLine (s.cursor.skip 1).rest

/-- A possible key is saved in both scanners. -/
structure Saves (s c : Scanner) : Prop where
  safe : s.keyAllowed = true → ∀ found ∈ s.key, found.number ≠ 0
  same : s.keyAllowed = true → s.inFlow = false → s.indent = c.indent ∨ s.lexemes = []

namespace Facing

theorem saveKey (facing : Facing site front base s c) (saves : Saves s c) (saved : s.saveKey = some t) :
    ∃ u, c.saveKey = some u ∧ Facing site front base t u := by
  obtain ⟨u, saved', beside⟩ := facing.toBeside.saveKey facing.ends.ne_nil saves.safe saves.same saved
  have same : t.cursor = s.cursor := by
    obtain ⟨-, rfl⟩ := saveKey_eq_some_iff.mp saved
    split <;> rfl
  exact ⟨u, saved', beside, same ▸ facing.ends, same ▸ facing.after⟩

theorem dropKey (facing : Facing site front base s c) (safe : ∀ found ∈ s.key, found.number ≠ 0)
    (dropped : s.dropKey = some t) : ∃ u, c.dropKey = some u ∧ Facing site front base t u := by
  obtain ⟨u, dropped', beside⟩ := facing.toBeside.dropKey safe dropped
  obtain ⟨-, rfl⟩ := dropKey_eq_some_iff.mp dropped
  exact ⟨u, dropped', beside, facing.ends, facing.after⟩

theorem take (facing : Facing site front base s c) (allowed : Bool) (kind : Kind) :
    Beside site front base ((s.allow allowed).take 1 kind) ((c.allow allowed).take 1 kind) :=
  (facing.toBeside.allow facing.ends.ne_nil allowed).take kind facing.after.ne_nil

theorem push (facing : Facing site front base s c) (allowed : Bool) (kind : Kind) {cursor : Cursor}
    (ended : EndsLine cursor.rest) : Beside site front base
      { (s.allow allowed).push kind s.mark cursor.mark with cursor }
      { (c.allow allowed).push kind c.mark (cursor.moved site.spot).mark with cursor := cursor.moved site.spot } :=
  ((facing.toBeside.allow facing.ends.ne_nil allowed).push kind _ _ _ _).move
    (Cursor.landed_of_ne_nil ended.ne_nil).symm fun done => absurd done ended.ne_nil

theorem openFlow (facing : Facing site front base s c) (saves : Saves s c) (kind : Kind) :
    Follows site front base (s.openFlow kind) (c.openFlow kind) := by
  intro next read
  simp only [Scanner.openFlow, Option.bind_eq_bind] at read ⊢
  obtain ⟨t, saved, read⟩ := Option.bind_eq_some_iff.mp read
  cases read
  obtain ⟨u, saved', facing⟩ := facing.saveKey saves saved
  exact ⟨_, by rw [saved']; rfl, (facing.take true kind).openFlow⟩

theorem closeFlow (facing : Facing site front base s c) (safe : ∀ found ∈ s.key, found.number ≠ 0) (kind : Kind) :
    Follows site front base (s.closeFlow kind) (c.closeFlow kind) := by
  intro next read
  simp only [Scanner.closeFlow, Option.bind_eq_bind] at read ⊢
  obtain ⟨t, dropped, read⟩ := Option.bind_eq_some_iff.mp read
  cases read
  obtain ⟨u, dropped', facing⟩ := facing.dropKey safe dropped
  refine ⟨_, by rw [dropped']; rfl, ?_⟩
  have outer := facing.outerKeys
  cases keys : t.outerKeys with
  | nil =>
    have keys' : u.outerKeys = [] := by simpa [keys] using outer
    simp only [keys']
    exact facing.take false kind
  | cons key outerKeys =>
    rw [keys] at outer
    obtain ⟨key', outerKeys', first, later, keys'⟩ := List.forall₂_cons_left_iff.mp outer
    simp only [keys']
    have popped : Facing site front base { t with key, outerKeys } { u with key := key', outerKeys := outerKeys' } :=
      { facing with key := first, outerKeys := later, ended := fun done => absurd done facing.ends.ne_nil }
    exact popped.take false kind

theorem flowEntry (facing : Facing site front base s c) (safe : ∀ found ∈ s.key, found.number ≠ 0) :
    Follows site front base s.flowEntry c.flowEntry := by
  intro next read
  simp only [Scanner.flowEntry, Option.bind_eq_bind] at read ⊢
  obtain ⟨t, dropped, read⟩ := Option.bind_eq_some_iff.mp read
  cases read
  obtain ⟨u, dropped', facing⟩ := facing.dropKey safe dropped
  exact ⟨_, by rw [dropped']; rfl, facing.take true .flowEntry⟩

theorem blockEntry (safe : ∀ found ∈ s.key, found.number ≠ 0)
    (opens : ∀ t, s.openAt .blockSequenceStart = some t →
      ∃ u, c.openAt .blockSequenceStart = some u ∧ Facing site front base t u) :
    Follows site front base s.blockEntry c.blockEntry := by
  intro next read
  simp only [Scanner.blockEntry, Option.bind_eq_bind] at read ⊢
  obtain ⟨t, opened, read⟩ := Option.bind_eq_some_iff.mp read
  obtain ⟨v, dropped, read⟩ := Option.bind_eq_some_iff.mp read
  cases read
  obtain ⟨u, opened', later⟩ := opens t opened
  obtain ⟨w, dropped', later⟩ := later.dropKey (key_openAt opened ▸ safe) dropped
  exact ⟨_, by rw [opened', Option.bind_some, dropped']; rfl, later.take true .blockEntry⟩

theorem explicitKey {front' base' : List Lexeme} (safe : ∀ found ∈ s.key, found.number ≠ 0)
    (opens : ∀ t, s.openAt .blockMappingStart = some t →
      ∃ u, c.openAt .blockMappingStart = some u ∧ Facing site front' base' t u) :
    Follows site front' base' s.explicitKey c.explicitKey := by
  intro next read
  simp only [Scanner.explicitKey, Option.bind_eq_bind] at read ⊢
  obtain ⟨t, opened, read⟩ := Option.bind_eq_some_iff.mp read
  obtain ⟨v, dropped, read⟩ := Option.bind_eq_some_iff.mp read
  cases read
  obtain ⟨u, opened', later⟩ := opens t opened
  obtain ⟨w, dropped', later⟩ := later.dropKey (key_openAt opened ▸ safe) dropped
  refine ⟨_, by rw [opened', Option.bind_some, dropped']; rfl, ?_⟩
  rw [later.inFlow]
  exact later.take _ .key

/-- A colon without a key in front of it. -/
theorem bareValue {front' base' : List Lexeme} (noKey : s.key = none) (noKey' : c.key = none)
    (opens : ∀ t, s.openAt .blockMappingStart = some t →
      ∃ u, c.openAt .blockMappingStart = some u ∧ Facing site front' base' t u) :
    Follows site front' base' s.value c.value := by
  intro next read
  simp only [Scanner.value, noKey, noKey', Option.bind_eq_bind] at read ⊢
  obtain ⟨t, opened, read⟩ := Option.bind_eq_some_iff.mp read
  cases read
  obtain ⟨u, opened', later⟩ := opens t opened
  refine ⟨_, by rw [opened']; rfl, ?_⟩
  rw [later.inFlow]
  exact later.take _ .value

theorem noKey (facing : Facing site front base s c) :
    Facing site front base { s with key := none } { c with key := none } :=
  { facing with toBeside := facing.toBeside.noKey }

/-- A colon behind a possible key. -/
theorem keyedValue {front' base' : List Lexeme} {found found' : PossibleKey} (isKey : s.key = some found)
    (isKey' : c.key = some found')
    (opened : Facing site front' base'
      { (s.insertAt found.number .key found.mark).openBlock found.mark.column found.number .blockMappingStart
        found.mark with key := none }
      { (c.insertAt found'.number .key found'.mark).openBlock found'.mark.column found'.number .blockMappingStart
        found'.mark with key := none }) : Follows site front' base' s.value c.value := by
  intro next read
  simp only [Scanner.value, isKey, isKey', Option.some.injEq] at read ⊢
  subst read
  exact ⟨_, rfl, opened.take false .value⟩

theorem named (facing : Facing site front base s c) (saves : Saves s c) (kind : String → Kind) :
    Follows site front base (s.named kind) (c.named kind) := by
  intro next read
  simp only [Scanner.named, Option.bind_eq_bind] at read ⊢
  obtain ⟨t, saved, read⟩ := Option.bind_eq_some_iff.mp read
  obtain ⟨⟨name, cursor⟩, isName, read⟩ := Option.bind_eq_some_iff.mp read
  cases read
  obtain ⟨u, saved', facing⟩ := facing.saveKey saves saved
  refine ⟨_, ?_, facing.push false (kind name) (endsLine_anchorName? facing.after isName)⟩
  rw [saved', Option.bind_some, facing.moved facing.ends.ne_nil, anchorName?_moved facing.after facing.ends.ne_nil, isName]
  rfl

theorem tag (facing : Facing site front base s c) (saves : Saves s c) (bang : s.cursor.next? = some '!') :
    Follows site front base s.tag c.tag := by
  intro next read
  simp only [Scanner.tag, Option.bind_eq_bind] at read ⊢
  obtain ⟨t, saved, read⟩ := Option.bind_eq_some_iff.mp read
  obtain ⟨⟨handle, suffix, cursor⟩, isTag, read⟩ := Option.bind_eq_some_iff.mp read
  obtain ⟨u, saved', facing⟩ := facing.saveKey saves saved
  have bang : t.cursor.next? = some '!' := by
    obtain ⟨-, rfl⟩ := saveKey_eq_some_iff.mp saved
    split <;> exact bang
  have ended := endsLine_tag? facing.ends isTag
  split at read
  next gap =>
    cases read
    refine ⟨_, ?_, facing.push false (.tag handle suffix) ended⟩
    rw [saved', Option.bind_some, facing.moved facing.ends.ne_nil, tag?_moved facing.after bang, isTag]
    simp only [Option.map_some, Option.bind_some, facing.inFlow, Cursor.rest_moved, gapNext_append ended.ne_nil,
      Cursor.next?_moved ended.ne_nil, if_pos gap]
    rfl
  next => cases read

theorem scalar (facing : Facing site front base s c) (plain : Bool) {allowed : Bool} {scanned : Scanned}
    (ended : scanned.cursor.rest = [] → allowed = true) :
    Beside site front base (s.scalar plain allowed scanned) (c.scalar plain allowed (scanned.landed site.spot)) :=
  ((facing.toBeside.allow facing.ends.ne_nil allowed).push _ _ _ _ _).move rfl fun done _ => ended done

theorem quotedText (facing : Facing site front base s c) (saves : Saves s c)
    {scan : Mark → List Char → Option Scanned}
    (moves : ∀ {mark cs scanned}, scan mark cs = some scanned → EndsLine cs → EndsLine scanned.cursor.rest ∧
      scan (mark.moved site.spot) (cs ++ site.spot.more) = some (scanned.moved site.spot)) :
    Follows site front base (s.quotedText scan) (c.quotedText scan) := by
  intro next read
  simp only [Scanner.quotedText, Option.bind_eq_bind] at read ⊢
  obtain ⟨t, saved, read⟩ := Option.bind_eq_some_iff.mp read
  obtain ⟨scanned, isQuoted, read⟩ := Option.bind_eq_some_iff.mp read
  cases read
  obtain ⟨u, saved', facing⟩ := facing.saveKey saves saved
  obtain ⟨ended, moved⟩ := moves isQuoted facing.after
  refine ⟨_, ?_, facing.scalar false fun done => absurd done ended.ne_nil⟩
  rw [saved', Option.bind_some, facing.moved facing.ends.ne_nil, Cursor.skip_one_moved facing.ends.ne_nil]
  simp only [Cursor.mark_moved, Cursor.rest_moved, moved, Option.bind_some]
  rw [Scanned.landed_of_ne_nil ended.ne_nil]
  rfl

/-- A plain text that is read in both places. -/
theorem plainText (facing : Facing site front base s c) (saves : Saves s c)
    (reads : ∀ scanned, scanned.cursor = next.cursor →
      plainFrom s.inFlow (s.indent + 1) [] .none s.mark s.cursor.rest = some scanned →
      plainFrom s.inFlow (c.indent + 1) [] .none (s.mark.moved site.spot) (s.cursor.rest ++ site.spot.more) =
        some (scanned.landed site.spot)) (read : s.plainText = some next) :
    ∃ next', c.plainText = some next' ∧ Beside site front base next next' := by
  simp only [Scanner.plainText, Option.bind_eq_bind] at read ⊢
  obtain ⟨t, saved, read⟩ := Option.bind_eq_some_iff.mp read
  obtain ⟨scanned, isPlain, read⟩ := Option.bind_eq_some_iff.mp read
  cases read
  obtain ⟨u, saved', later⟩ := facing.saveKey saves saved
  have same : t.inFlow = s.inFlow ∧ t.indent = s.indent ∧ t.cursor = s.cursor := by
    obtain ⟨-, rfl⟩ := saveKey_eq_some_iff.mp saved
    split <;> exact ⟨rfl, rfl, rfl⟩
  have level : u.indent = c.indent := by
    obtain ⟨-, rfl⟩ := saveKey_eq_some_iff.mp saved'
    split <;> rfl
  rw [Scanner.mark, same.1, same.2.1, same.2.2] at isPlain
  refine ⟨_, ?_, later.scalar true fun done => plainFrom_broken isPlain (.inl facing.ends) done⟩
  rw [saved', Option.bind_some, Scanner.mark, later.moved later.ends.ne_nil, later.inFlow, same.1, same.2.2, level]
  have moved := reads scanned rfl isPlain
  rw [Scanner.mark] at moved
  simp only [Cursor.mark_moved, Cursor.rest_moved, moved, Option.bind_some]
  rfl

/-- A block text that is read in both places. -/
theorem blockText (facing : Facing site front base s c) (safe : ∀ found ∈ s.key, found.number ≠ 0) {isLiteral : Bool}
    (level : c.indent = s.indent) (shallow : (site.spot.column : Int) ≤ s.indent) :
    Follows site front base (s.blockText isLiteral) (c.blockText isLiteral) := by
  intro next read
  simp only [Scanner.blockText, Option.bind_eq_bind] at read ⊢
  obtain ⟨t, dropped, read⟩ := Option.bind_eq_some_iff.mp read
  obtain ⟨scanned, isBlock, read⟩ := Option.bind_eq_some_iff.mp read
  cases read
  obtain ⟨u, dropped', later⟩ := facing.dropKey safe dropped
  have same : t.indent = s.indent ∧ t.cursor = s.cursor := by
    obtain ⟨-, rfl⟩ := dropKey_eq_some_iff.mp dropped
    exact ⟨rfl, rfl⟩
  have level : u.indent = s.indent := by
    obtain ⟨-, rfl⟩ := dropKey_eq_some_iff.mp dropped'
    exact level
  rw [same.1, same.2] at isBlock
  refine ⟨_, ?_, later.scalar false fun _ => rfl⟩
  rw [dropped', Option.bind_some, later.moved later.ends.ne_nil, same.2, level,
    block?_landed isBlock facing.after shallow]
  rfl

end Facing

section Dispatch

/-- The one scanner goes astray, or the other follows it. -/
def Matched (astray : Prop) (beside : Scanner → Prop) (second : Option Scanner) : Prop :=
  astray ∨ ∃ next, second = some next ∧ beside next

variable {astray : Prop} {beside : Scanner → Prop}

theorem Matched.branch {p : Prop} [Decidable p] {yes no yes' no' : Option Scanner}
    (read : (if p then yes else no) = some next) (onYes : p → yes = some next → Matched astray beside yes')
    (onNo : ¬p → no = some next → Matched astray beside no') :
    Matched astray beside (if p then yes' else no') := by
  by_cases decided : p
  · rw [if_pos decided] at read ⊢
    exact onYes decided read
  · rw [if_neg decided] at read ⊢
    exact onNo decided read

/-- What is asked of each action. -/
structure Actions (astray : Scanner → Prop) (beside : Scanner → Scanner → Prop) (s c : Scanner) : Prop where
  directive {next : Scanner} : s.directive = some next → astray next
  documentMark {next : Scanner} {kind : Kind} : kind = .documentStart ∨ kind = .documentEnd →
    s.documentMark kind = some next → astray next
  openFlow {next : Scanner} {kind : Kind} : kind.opensFlow = true → s.openFlow kind = some next →
    Matched (astray next) (beside next) (c.openFlow kind)
  closeFlow {next : Scanner} {kind : Kind} : kind.closesFlow = true → s.closeFlow kind = some next →
    Matched (astray next) (beside next) (c.closeFlow kind)
  flowEntry {next : Scanner} : s.flowEntry = some next → Matched (astray next) (beside next) c.flowEntry
  blockEntry {next : Scanner} : s.blockEntry = some next → Matched (astray next) (beside next) c.blockEntry
  explicitKey {next : Scanner} : s.explicitKey = some next → Matched (astray next) (beside next) c.explicitKey
  value {next : Scanner} : s.value = some next → Matched (astray next) (beside next) c.value
  named {next : Scanner} {kind : String → Kind} : (∀ name, (kind name).bounds = false) →
    s.named kind = some next → Matched (astray next) (beside next) (c.named kind)
  tag {next : Scanner} : s.cursor.next? = some '!' → s.tag = some next → Matched (astray next) (beside next) c.tag
  blockText {next : Scanner} {isLiteral : Bool} : s.inFlow = false → s.blockText isLiteral = some next →
    Matched (astray next) (beside next) (c.blockText isLiteral)
  singleQuoted {next : Scanner} : s.quotedText (singleQuotedFrom [] .none) = some next →
    Matched (astray next) (beside next) (c.quotedText (singleQuotedFrom [] .none))
  doubleQuoted {next : Scanner} : s.quotedText (doubleQuotedFrom [] .none .outside) = some next →
    Matched (astray next) (beside next) (c.quotedText (doubleQuotedFrom [] .none .outside))
  plainText {next : Scanner} : s.plainText = some next → Matched (astray next) (beside next) c.plainText

/-- Both scanners take the same action. -/
theorem Actions.lexeme {astray : Scanner → Prop} {beside : Scanner → Scanner → Prop}
    (actions : Actions astray beside s c) (facing : Facing site front base s c) {ch : Char} {rest : List Char}
    (here : s.cursor.rest = ch :: rest) (read : s.lexeme ch rest = some next) :
    Matched (astray next) (beside next) (c.lexeme ch (rest ++ site.spot.more)) := by
  have skipped : (s.cursor.skip 1).rest = rest := by simp [Cursor.skip, here]
  have some : rest ≠ [] := skipped ▸ facing.after.ne_nil
  have begins : beginsPlain s.inFlow ch (rest ++ site.spot.more) = beginsPlain s.inFlow ch rest := by
    rw [beginsPlain, head?_append_of_ne_nil some, gapNext_append some, beginsPlain]
  have startMark : (s.cursor.moved site.spot).atDocumentMark Cursor.startMark =
      s.cursor.atDocumentMark Cursor.startMark := Cursor.atDocumentMark_moved (unbroken_of_any rfl) rfl facing.ends
  have endMark : (s.cursor.moved site.spot).atDocumentMark Cursor.endMark =
      s.cursor.atDocumentMark Cursor.endMark := Cursor.atDocumentMark_moved (unbroken_of_any rfl) rfl facing.ends
  unfold Scanner.lexeme at read ⊢
  simp only [facing.moved facing.ends.ne_nil, facing.inFlow, Cursor.column_moved, gapNext_append some, begins,
    startMark, endMark]
  refine .branch read (fun _ read => .inl (actions.directive read)) fun _ read => ?_
  refine .branch read (fun _ read => .inl (actions.documentMark (.inl rfl) read)) fun _ read => ?_
  refine .branch read (fun _ read => .inl (actions.documentMark (.inr rfl) read)) fun _ read => ?_
  refine .branch read (fun _ => actions.openFlow rfl) fun _ read => ?_
  refine .branch read (fun _ => actions.openFlow rfl) fun _ read => ?_
  refine .branch read (fun _ => actions.closeFlow rfl) fun _ read => ?_
  refine .branch read (fun _ => actions.closeFlow rfl) fun _ read => ?_
  refine .branch read (fun _ => actions.flowEntry) fun _ read => ?_
  refine .branch read (fun _ => actions.blockEntry) fun _ read => ?_
  refine .branch read (fun _ => actions.explicitKey) fun _ read => ?_
  refine .branch read (fun _ => actions.value) fun _ read => ?_
  refine .branch read (fun _ => actions.named fun _ => rfl) fun _ read => ?_
  refine .branch read (fun _ => actions.named fun _ => rfl) fun _ read => ?_
  refine .branch read (fun bang => actions.tag (by rw [Cursor.next?, here, bang]; rfl)) fun _ read => ?_
  refine .branch read (fun bar => actions.blockText (by simp_all)) fun _ read => ?_
  refine .branch read (fun bar => actions.blockText (by simp_all)) fun _ read => ?_
  refine .branch read (fun _ => actions.singleQuoted) fun _ read => ?_
  refine .branch read (fun _ => actions.doubleQuoted) fun _ read => ?_
  exact .branch read (fun _ => actions.plainText) fun _ read => by cases read

end Dispatch

section Late

variable {first : Lexeme}

/-- No mapping alone in its text has such lexemes. -/
def Astray (s : Scanner) : Prop :=
  (∃ lexeme ∈ s.lexemes, lexeme.kind.isStream = true) ∨ s.cursor.rest = [] ∧ s.inFlow = true

theorem astray_directive (read : s.directive = some next) : next.Astray := by
  simp only [directive, Option.bind_eq_bind] at read
  obtain ⟨t, dropped, read⟩ := Option.bind_eq_some_iff.mp read
  obtain ⟨⟨kind, cursor⟩, isDirective, read⟩ := Option.bind_eq_some_iff.mp read
  cases read
  refine .inl ⟨_, List.mem_cons_self, ?_⟩
  obtain ⟨_, _, rfl⟩ | ⟨_, _, rfl⟩ := directive?_kind isDirective <;> rfl

theorem astray_documentMark (mark : kind = .documentStart ∨ kind = .documentEnd)
    (read : s.documentMark kind = some next) : next.Astray := by
  simp only [documentMark, Option.bind_eq_bind] at read
  obtain ⟨t, dropped, read⟩ := Option.bind_eq_some_iff.mp read
  cases read
  refine .inl ⟨_, List.mem_cons_self, ?_⟩
  rcases mark with rfl | rfl <;> rfl

namespace Facing

theorem safe (facing : Facing site [first] base s c) : ∀ found ∈ s.key, found.number ≠ 0 := by
  intro found isKey
  obtain ⟨_, _, moved⟩ := facing.key_some isKey
  obtain ⟨n, number, -⟩ := moved.number
  exact number ▸ Nat.succ_ne_zero n

theorem saves (facing : Facing site [first] base s c) : Saves s c :=
  ⟨fun _ => facing.safe, fun _ _ => .inl facing.indent.symm⟩

theorem openBlock (facing : Facing site [first] base s c) {number number' : Nat}
    (pair : ∃ n, number = n + [first].length ∧ number' = n + base.length) (column : Nat) (kind : Kind)
    (mark mark' : Mark) : Facing site [first] base (s.openBlock column number kind mark)
      (c.openBlock column number' kind mark') := by
  have same : (s.openBlock column number kind mark).cursor = s.cursor := by
    unfold Scanner.openBlock
    split <;> rfl
  exact ⟨facing.toBeside.openBlock pair column kind mark mark', same ▸ facing.ends, same ▸ facing.after⟩

theorem openAt (facing : Facing site [first] base s c) (opened : s.openAt kind = some t) :
    ∃ u, c.openAt kind = some u ∧ Facing site [first] base t u := by
  simp only [Scanner.openAt, facing.inFlow, facing.allowed] at opened ⊢
  split at opened
  next flow =>
    cases opened
    exact ⟨c, if_pos flow, facing⟩
  next outside =>
  rw [if_neg outside]
  split at opened
  next allowed =>
    cases opened
    refine ⟨_, if_pos allowed, ?_⟩
    rw [facing.moved facing.ends.ne_nil]
    exact facing.openBlock facing.length _ _ _ _
  next => cases opened

theorem value (facing : Facing site [first] base s c) : Follows site [first] base s.value c.value := by
  cases isKey : s.key with
  | none => exact bareValue isKey (facing.key_none isKey) fun t => facing.openAt
  | some found =>
    obtain ⟨found', isKey', moved⟩ := facing.key_some isKey
    have marked : Facing site [first] base (s.insertAt found.number .key found.mark)
        (c.insertAt found'.number .key found'.mark) :=
      { facing with toBeside := facing.toBeside.insertAt moved.number .key _ _ }
    refine keyedValue isKey isKey' ?_
    rw [moved.mark] at marked ⊢
    exact (marked.openBlock moved.number _ _ _ _).noKey

theorem plainText_inFlow (read : s.plainText = some next) : next.inFlow = s.inFlow := by
  simp only [Scanner.plainText, Option.bind_eq_bind] at read
  obtain ⟨t, saved, read⟩ := Option.bind_eq_some_iff.mp read
  obtain ⟨scanned, -, read⟩ := Option.bind_eq_some_iff.mp read
  cases read
  obtain ⟨-, rfl⟩ := saveKey_eq_some_iff.mp saved
  show Scanner.inFlow (ite _ _ _) = _
  split <;> rfl

/-- Once the text has opened its block, the other scanner follows it. -/
theorem late (facing : Facing site [first] base s c) (sound : s.Sound) :
    Actions Astray (Beside site [first] base) s c where
  directive := astray_directive
  documentMark := astray_documentMark
  openFlow _ read := .inr (facing.openFlow facing.saves _ _ read)
  closeFlow _ read := .inr (facing.closeFlow facing.safe _ _ read)
  flowEntry read := .inr (facing.flowEntry facing.safe _ read)
  blockEntry read := .inr (blockEntry facing.safe (fun _ => facing.openAt) _ read)
  explicitKey read := .inr (explicitKey facing.safe (fun _ => facing.openAt) _ read)
  value read := .inr (facing.value _ read)
  named _ read := .inr (facing.named facing.saves _ _ read)
  tag bang read := .inr (facing.tag facing.saves bang _ read)
  blockText _ read := by
    have deep := facing.column_le sound
    have shallow := site.shallow
    exact .inr (facing.blockText facing.safe facing.indent (by omega) _ read)
  singleQuoted read := .inr (facing.quotedText facing.saves singleQuotedFrom_moved _ read)
  doubleQuoted read := .inr (facing.quotedText facing.saves doubleQuotedFrom_moved _ read)
  plainText {next} read := by
    by_cases astray : next.Astray
    · exact .inl astray
    refine .inr (facing.plainText facing.saves (fun scanned same isPlain => ?_) read)
    rw [facing.indent]
    refine plainFrom_landed _ isPlain (.inl facing.ends) fun done => ?_
    have deep := facing.column_le sound
    have shallow := site.shallow
    refine ⟨?_, by omega⟩
    rw [← plainText_inFlow read, ← Bool.not_eq_true]
    exact fun flow => astray (.inr ⟨same ▸ done, flow⟩)

end Facing

end Late

end Scanner

end Colorization.Yaml
