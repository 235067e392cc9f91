import Colorization.Proofs.Yaml.Beside.Run

/-! Up to the first colon outside of brackets the block of the mapping is not open yet. The first lexeme
has to be its key then, so that nothing may come that drops this key. -/
namespace Colorization.Yaml

namespace Scanner

variable {site : Site} {front base : List Lexeme} {s c t u next last : Scanner} {fuel n : Nat} {mark : Mark}
  {body : List Kind} {kind : Kind}

section Lowest

variable {exempt : PossibleKey → Prop} {key : Option PossibleKey} {outerKeys : List (Option PossibleKey)}

theorem Behind.of_lowest (behind : Behind exempt n key outerKeys)
    (lost : ∀ found ∈ lowest key outerKeys, ¬exempt found) : Behind (fun _ => False) n key outerKeys := by
  induction outerKeys generalizing key with
  | nil => exact fun found isKey => .inr ((behind found isKey).resolve_left (lost found isKey))
  | cons outer rest ih => exact ⟨behind.1, ih behind.2 lost⟩

theorem Behind.mem (behind : Behind exempt n key outerKeys) :
    ∀ other ∈ key :: outerKeys, ∀ found ∈ other, n ≤ found.number ∨ lowest key outerKeys = some found ∧ exempt found := by
  induction outerKeys generalizing key with
  | nil =>
    intro other member found isKey
    obtain rfl : other = key := by simpa using member
    exact (behind found isKey).symm.imp_right fun free => ⟨isKey, free⟩
  | cons outer rest ih =>
    intro other member found isKey
    rcases List.mem_cons.mp member with rfl | later
    · exact .inl (behind.1 found isKey)
    · exact ih behind.2 other later found isKey

theorem lowest_map (change : Option PossibleKey → Option PossibleKey) (key : Option PossibleKey)
    (outerKeys : List (Option PossibleKey)) :
    lowest (change key) (outerKeys.map change) = change (lowest key outerKeys) := by
  induction outerKeys generalizing key with
  | nil => rfl
  | cons outer rest ih => exact ih outer

end Lowest

section Begun

/-- The first lexeme opens no mapping, but may still be the key of one. -/
def Begun (mark : Mark) (s : Scanner) : Prop :=
  ∃ lexeme : Lexeme, lexeme.kind ≠ .blockMappingStart ∧ s.Frozen (· = ⟨false, 0, mark⟩) [lexeme]

theorem Begun.changes (begun : Begun mark s) (changes : Changes False s next) : Begun mark next := by
  obtain ⟨lexeme, other, frozen⟩ := begun
  exact ⟨lexeme, other, changes.frozen nofun frozen⟩

theorem Begun.lexemes_ne_nil (begun : Begun mark s) : s.lexemes ≠ [] := by
  obtain ⟨lexeme, -, ⟨later, held⟩, -⟩ := begun
  simp [held]

theorem Begun.mem (begun : Begun mark s) : ∀ key ∈ s.key :: s.outerKeys, ∀ found ∈ key,
    found.number ≠ 0 ∨ lowest s.key s.outerKeys = some found ∧ found = ⟨false, 0, mark⟩ := by
  obtain ⟨lexeme, -, -, behind⟩ := begun
  intro key member found isKey
  exact (behind.mem key member found isKey).imp_left fun further => Nat.ne_of_gt further

theorem Begun.safe (begun : Begun mark s) (inside : s.outerKeys ≠ []) : ∀ found ∈ s.key, found.number ≠ 0 := by
  obtain ⟨lexeme, -, -, behind⟩ := begun
  exact fun found isKey => Nat.ne_of_gt (behind.number isKey fun outside => absurd outside inside)

/-- The first lexeme is still the key that it may be. -/
theorem Alone.lowest_eq (alone : Alone body last) (ends : s.Ends last) (begun : Begun mark s) :
    lowest s.key s.outerKeys = some ⟨false, 0, mark⟩ := by
  by_contra lost
  obtain ⟨lexeme, other, held, behind⟩ := begun
  have frozen : s.Frozen (fun _ => False) [lexeme] :=
    ⟨held, behind.of_lowest fun found isKey same => lost (by rw [isKey, same])⟩
  have opens := (alone.frozen ends frozen (List.cons_ne_nil _ _)).1
  exact other (by simpa [kinds] using opens)

theorem Alone.fresh (alone : Alone body last) (dropped : s.dropStale = some u) (ends : u.Ends last)
    (begun : Begun mark s) : lowest u.key u.outerKeys = some ⟨false, 0, mark⟩ ∧
      lowest s.key s.outerKeys = some ⟨false, 0, mark⟩ ∧ isStale s.mark ⟨false, 0, mark⟩ = false := by
  have begun' := begun.changes (changes_dropStale dropped)
  have left := alone.lowest_eq ends begun'
  obtain ⟨-, rfl⟩ := dropStale_eq_some_iff.mp dropped
  have filtered : Scanner.fresh s.mark (lowest s.key s.outerKeys) = some ⟨false, 0, mark⟩ := by
    rw [← lowest_map (Scanner.fresh s.mark)]
    exact left
  obtain ⟨same, lives⟩ := Option.filter_eq_some_iff.mp filtered
  exact ⟨left, same, by simpa using lives⟩

/-- Nothing but the line of the first lexeme is behind. -/
theorem Alone.line_le (alone : Alone body last) (sound : s.Sound) (whole : s.cursor.Whole)
    (run : s.run fuel = some last) (begun : Begun mark s) :
    lowest s.key s.outerKeys = some ⟨false, 0, mark⟩ ∧ s.cursor.mark.line ≤ mark.line := by
  refine ⟨alone.lowest_eq (ends_of_run sound whole run) begun, ?_⟩
  obtain _ | fuel := fuel
  · cases run
  obtain ⟨t, turns, goes⟩ := run_succ run
  have changes : Changes True s t := turns.changes
  have ends := goes.ends (changes.sound sound) (changes.ahead.whole whole) (turns.ready sound)
  obtain ⟨u, settled, rfl⟩ := turns
  have gaps : Changes False s (s.skipGaps (s.cursor.rest.length + 1)) := changes_skipGaps s _
  have closes : Changes True u (u.closeBlocks u.cursor.column) := changes_closeBlocks u _
  have lives := (alone.fresh settled (closes.ends ends) (begun.changes gaps)).2.2
  exact Nat.le_trans gaps.ahead.line_le (line_le_of_not_isStale lives)

end Begun

section Opening

/-- The block of the mapping is opened in both places. -/
theorem Beside.enter (beside : Beside site [] site.lexemes s c) (outside : s.outerKeys = []) (noKey : s.key = none)
    (first first' : Mark) : ∃ base, Beside site [⟨.blockMappingStart, first, first⟩] base
      (s.openBlock site.column 0 .blockMappingStart first)
      (c.openBlock site.column site.lexemes.length .blockMappingStart first') := by
  have flow : s.inFlow = false := by simp [Scanner.inFlow, outside]
  have outside' : c.outerKeys = [] := by simpa [Scanner.inFlow] using beside.inFlow.trans flow
  have noKey' := beside.key_none noKey
  obtain ⟨own, own', here, there, same⟩ := beside.lexemes
  have levels := beside.levels
  generalize indent_eq : s.indent = indent at levels
  generalize outer_eq : s.outerIndents = outer at levels
  generalize indent_eq' : c.indent = indent' at levels
  generalize outer_eq' : c.outerIndents = outer' at levels
  cases levels with
  | early =>
    have opened : s.openBlock site.column 0 .blockMappingStart first =
        { s with
          lexemes := own ++ [⟨.blockMappingStart, first, first⟩]
          indent := site.column
          outerIndents := [-1] } := by
      have below : (-1 : Int) < site.column := by omega
      simp [Scanner.openBlock, flow, indent_eq, outer_eq, below, Scanner.insertAt, here]
    rw [opened]
    by_cases deeper : site.indent < site.column
    · have opened' : c.openBlock site.column site.lexemes.length .blockMappingStart first' =
          { c with
            lexemes := own' ++ ⟨.blockMappingStart, first', first'⟩ :: site.lexemes
            indent := site.column
            outerIndents := site.indent :: site.outer } := by
        simp [Scanner.openBlock, beside.inFlow, flow, indent_eq', outer_eq', deeper, Scanner.insertAt, there]
      rw [opened']
      refine ⟨_, beside.cursor, beside.allowed, ?_, ?_, ⟨own, own', rfl, rfl, same⟩, ?_, beside.ended⟩
      · simp [noKey, noKey']
      · simp [outside, outside']
      · exact .late [] rfl (by simp [opening, deeper]) rfl (by simp [outerOf, deeper])
    · have opened' : c.openBlock site.column site.lexemes.length .blockMappingStart first' = c := by
        simp [Scanner.openBlock, indent_eq', deeper]
      rw [opened']
      refine ⟨site.lexemes, beside.cursor, beside.allowed, ?_, ?_, ⟨own, own', rfl, there, same⟩, ?_, beside.ended⟩
      · simp [noKey, noKey']
      · simp [outside, outside']
      · have level : site.indent = site.column := by
          have deep := site.deep
          omega
        rw [indent_eq', outer_eq']
        exact .late [] rfl (by simp [opening, deeper]) rfl (by simp [outerOf, level])

theorem Facing.enter (facing : Facing site [] site.lexemes s c) (outside : s.outerKeys = []) (noKey : s.key = none)
    (first first' : Mark) : ∃ base, Facing site [⟨.blockMappingStart, first, first⟩] base
      (s.openBlock site.column 0 .blockMappingStart first)
      (c.openBlock site.column site.lexemes.length .blockMappingStart first') := by
  obtain ⟨base, beside⟩ := facing.toBeside.enter outside noKey first first'
  have same := cursor_openBlock s site.column 0 .blockMappingStart first
  exact ⟨base, beside, same ▸ facing.ends, same ▸ facing.after⟩

/-- What may become of the scanner in front of the first colon. -/
def Lost (mark : Mark) (next : Scanner) : Prop :=
  next.Astray ∨ Begun mark next ∧
    (lowest next.key next.outerKeys ≠ some ⟨false, 0, mark⟩ ∨ mark.line < next.cursor.mark.line)

/-- The block is open in both places, or the first lexeme may still be its key. -/
def Opens (site : Site) (mark : Mark) (next next' : Scanner) : Prop :=
  (∃ first base, Beside site [first] base next next') ∨ Beside site [] site.lexemes next next' ∧ Begun mark next

theorem Begun.opens (begun : Begun mark s) (changes : Changes False s next) {second : Option Scanner}
    (follows : ∃ next', second = some next' ∧ Beside site [] site.lexemes next next') :
    Matched (Lost mark next) (Opens site mark next) second := by
  obtain ⟨next', read', beside⟩ := follows
  exact .inr ⟨next', read', .inr ⟨beside, begun.changes changes⟩⟩

theorem Begun.lost (begun : Begun mark s) (changes : Changes False s next) {beside : Scanner → Prop}
    {second : Option Scanner} (lost : lowest next.key next.outerKeys ≠ some ⟨false, 0, mark⟩) :
    Matched (Lost mark next) beside second :=
  .inl (.inr ⟨begun.changes changes, .inl lost⟩)

/-- Saving another possible key outside of brackets loses the first one. -/
theorem Begun.saves (begun : Begun mark s) : Saves s c ∨
    ∀ u, s.saveKey = some u → lowest u.key u.outerKeys ≠ some ⟨false, 0, mark⟩ := by
  by_cases allowed : s.keyAllowed = true
  · by_cases outside : s.outerKeys = []
    · refine .inr fun u saved => ?_
      obtain ⟨-, rfl⟩ := saveKey_eq_some_iff.mp saved
      simp [allowed, outside, lowest, begun.lexemes_ne_nil]
    · exact .inl ⟨fun _ => begun.safe outside, fun _ flow => absurd (by simpa [inFlow] using flow) outside⟩
  · exact .inl ⟨fun yes => absurd yes allowed, fun yes => absurd yes allowed⟩

theorem lowest_of_dropKey (outside : s.outerKeys = []) (dropped : s.dropKey = some t) :
    lowest t.key t.outerKeys = none := by
  obtain ⟨-, rfl⟩ := dropKey_eq_some_iff.mp dropped
  simp [outside, lowest]

theorem outerKeys_openAt (opened : s.openAt kind = some t) : t.outerKeys = s.outerKeys := by
  simp only [openAt, openBlock] at opened
  repeat' split at opened
  all_goals cases opened
  all_goals rfl

/-- In brackets a mark opens no block. -/
theorem Facing.openAt_inFlow (facing : Facing site front base s c) (inside : s.outerKeys ≠ []) :
    ∀ t, s.openAt kind = some t → ∃ u, c.openAt kind = some u ∧ Facing site front base t u := by
  intro t opened
  have flow : s.inFlow = true := by simpa [inFlow] using inside
  rw [Scanner.openAt, if_pos flow] at opened
  cases opened
  exact ⟨c, by rw [Scanner.openAt, facing.inFlow, if_pos flow], facing⟩

theorem Begun.opens_saving (begun : Begun mark s) {first second : Option Scanner}
    (read : first = some next) (changes : Changes False s next) (follows : Saves s c → Follows site [] site.lexemes first second)
    (saved : ∃ u, s.saveKey = some u ∧ lowest next.key next.outerKeys = lowest u.key u.outerKeys) :
    Matched (Lost mark next) (Opens site mark next) second := by
  rcases begun.saves (c := c) with saves | lost
  · exact begun.opens changes (follows saves next read)
  · obtain ⟨u, saved, same⟩ := saved
    exact begun.lost changes (same ▸ lost u saved)

theorem Begun.opens_dropping (begun : Begun mark s) {first second : Option Scanner}
    (read : first = some next) (changes : Changes False s next)
    (follows : s.outerKeys ≠ [] → Follows site [] site.lexemes first second)
    (dropped : s.outerKeys = [] → lowest next.key next.outerKeys = none) :
    Matched (Lost mark next) (Opens site mark next) second := by
  by_cases outside : s.outerKeys = []
  · refine begun.lost changes ?_
    rw [dropped outside]
    exact nofun
  · exact begun.opens changes (follows outside next read)

/-- A colon in brackets makes a key of a lexeme within them, if of any. -/
theorem Facing.value_inFlow (facing : Facing site [] site.lexemes s c) (inside : s.outerKeys ≠ []) :
    Follows site [] site.lexemes s.value c.value := by
  cases isKey : s.key with
  | none => exact Facing.bareValue isKey (facing.key_none isKey) (facing.openAt_inFlow inside)
  | some found =>
    obtain ⟨found', isKey', moved⟩ := facing.key_some isKey
    have flow : s.inFlow = true := by simpa [Scanner.inFlow] using inside
    have marked : Facing site [] site.lexemes (s.insertAt found.number .key found.mark)
        (c.insertAt found'.number .key found'.mark) :=
      { facing with toBeside := facing.toBeside.insertAt moved.number .key _ _ }
    refine Facing.keyedValue isKey isKey' ?_
    have stays (s : Scanner) (flow : s.inFlow = true) (column number : Nat) (kind : Kind) (mark : Mark) :
        s.openBlock column number kind mark = s := by
      simp [Scanner.openBlock, flow]
    rw [stays (s.insertAt found.number .key found.mark) flow,
      stays (c.insertAt found'.number .key found'.mark) (facing.inFlow.trans flow)]
    exact marked.noKey

/-- A colon outside of brackets makes a key of the first lexeme. -/
theorem Facing.value_outside (facing : Facing site [] site.lexemes s c) (outside : s.outerKeys = [])
    (isKey : s.key = some ⟨false, 0, mark⟩) (aligned : mark.column = site.column) (read : s.value = some next) :
    ∃ next', c.value = some next' ∧ ∃ first base, Beside site [first] base next next' := by
  obtain ⟨found', isKey', moved⟩ := facing.key_some isKey
  obtain ⟨_, rfl, number⟩ : ∃ n, 0 = n ∧ found'.number = n + site.lexemes.length := by
    obtain ⟨n, zero, number⟩ := moved.number
    exact ⟨n, zero, number⟩
  rw [Nat.zero_add] at number
  have marked : Facing site [] site.lexemes (s.insertAt 0 .key mark) (c.insertAt found'.number .key found'.mark) :=
    { facing with toBeside := facing.toBeside.insertAt moved.number .key _ _ }
  obtain ⟨base, opened⟩ := marked.noKey.enter outside rfl mark found'.mark
  rw [number] at opened
  have forgets (s : Scanner) (column number : Nat) (kind : Kind) (mark : Mark) :
      { s.openBlock column number kind mark with key := none } =
        ({ s with key := none } : Scanner).openBlock column number kind mark := by
    unfold Scanner.openBlock
    show _ = if !s.inFlow && decide (s.indent < column) then _ else _
    split <;> rfl
  have column' : found'.mark.column = site.column := by rw [moved.mark, Mark.column_moved, aligned]
  obtain ⟨next', read', beside⟩ := Facing.keyedValue isKey isKey' (by
    rw [forgets, forgets, column', number, aligned]
    exact opened) next read
  exact ⟨next', read', _, base, beside⟩

theorem changes_plainText {marks : Prop} (ready : s.Ready) (read : s.plainText = some next) :
    Changes marks s next ∧ ∃ u, s.saveKey = some u ∧ lowest next.key next.outerKeys = lowest u.key u.outerKeys := by
  simp only [Scanner.plainText, Option.bind_eq_bind] at read
  obtain ⟨u, saved, read⟩ := Option.bind_eq_some_iff.mp read
  obtain ⟨scanned, isPlain, read⟩ := Option.bind_eq_some_iff.mp read
  cases read
  refine ⟨(changes_saveKey ready saved).trans (.tail (.single (.pass scanned.broken ?_)) (.push _ _ rfl)), u, saved, rfl⟩
  exact ahead_plainFrom isPlain

/-- A plain text in the first line. -/
theorem Facing.plainText_inLine (facing : Facing site [] site.lexemes s c) (saves : Saves s c)
    (inside : site.column ≤ s.cursor.column) (inLine : next.cursor.mark.line ≤ s.cursor.mark.line)
    (read : s.plainText = some next) : ∃ next', c.plainText = some next' ∧ Beside site [] site.lexemes next next' := by
  refine facing.plainText saves (fun scanned same isPlain => ?_) read
  rw [← same] at inLine
  have ahead : s.cursor.Ahead scanned.cursor := ahead_plainFrom isPlain
  have some : scanned.cursor.rest ≠ [] := by
    intro done
    have later := ahead.line_lt facing.ends done
    omega
  have moved := plainFrom_landed site.spot isPlain (.inl facing.ends) fun done => absurd done some
  have deep := site.deep
  have column : site.column ≤ s.mark.column := inside
  have levels := facing.levels
  generalize s.indent = indent at levels moved
  generalize c.indent = indent' at levels
  generalize s.outerIndents = outer at levels
  generalize c.outerIndents = outer' at levels
  cases levels with
  | early =>
    refine plainFrom_inLine moved ?_ rfl ?_ (by simp)
    · rw [Scanned.landed_of_ne_nil some]
      exact Nat.add_le_add_right inLine _
    · rw [Mark.column_moved]
      omega

theorem Facing.opens_quotedText (facing : Facing site [] site.lexemes s c) (begun : Begun mark s) (ready : s.Ready)
    {scan : Mark → List Char → Option Scanned}
    (ahead : ∀ {mark cs scanned}, scan mark cs = some scanned → (⟨mark, cs⟩ : Cursor).Ahead scanned.cursor)
    (moves : ∀ {mark cs scanned}, scan mark cs = some scanned → EndsLine cs → EndsLine scanned.cursor.rest ∧
      scan (mark.moved site.spot) (cs ++ site.spot.more) = some (scanned.moved site.spot))
    (read : s.quotedText scan = some next) :
    Matched (Lost mark next) (Opens site mark next) (c.quotedText scan) := by
  refine begun.opens_saving read (grows_quotedText ready ahead read).changes
    (fun saves => facing.quotedText saves moves) ?_
  simp only [Scanner.quotedText, Option.bind_eq_bind] at read
  obtain ⟨u, saved, read⟩ := Option.bind_eq_some_iff.mp read
  obtain ⟨_, -, read⟩ := Option.bind_eq_some_iff.mp read
  cases read
  exact ⟨u, saved, rfl⟩

/-- Behind the first lexeme, in front of the colon. -/
theorem Facing.opening (facing : Facing site [] site.lexemes s c) (begun : Begun mark s) (ready : s.Ready)
    (lives : lowest s.key s.outerKeys = some ⟨false, 0, mark⟩) (aligned : mark.column = site.column)
    (line : mark.line ≤ s.cursor.mark.line) (inside : site.column ≤ s.cursor.column) :
    Actions (Lost mark) (Opens site mark) s c where
  directive read := .inl (astray_directive read)
  documentMark isMark read := .inl (astray_documentMark isMark read)
  openFlow {next kind} opens read := by
    refine begun.opens_saving read (grows_openFlow ready read opens).changes (fun saves => facing.openFlow saves kind) ?_
    simp only [Scanner.openFlow, Option.bind_eq_bind] at read
    obtain ⟨u, saved, read⟩ := Option.bind_eq_some_iff.mp read
    cases read
    exact ⟨u, saved, rfl⟩
  closeFlow {next kind} closes read := by
    refine begun.opens_dropping read (grows_closeFlow read closes).changes
      (fun inside => facing.closeFlow (begun.safe inside) kind) fun outside => ?_
    simp only [Scanner.closeFlow, Option.bind_eq_bind] at read
    obtain ⟨u, dropped, read⟩ := Option.bind_eq_some_iff.mp read
    obtain ⟨-, rfl⟩ := dropKey_eq_some_iff.mp dropped
    simp only [outside] at read
    cases read
    rfl
  flowEntry read := by
    refine begun.opens_dropping read (grows_flowEntry read).changes
      (fun inside => facing.flowEntry (begun.safe inside)) fun outside => ?_
    simp only [Scanner.flowEntry, Option.bind_eq_bind] at read
    obtain ⟨u, dropped, read⟩ := Option.bind_eq_some_iff.mp read
    cases read
    have nothing : lowest u.key u.outerKeys = none := lowest_of_dropKey outside dropped
    exact nothing
  blockEntry read := by
    refine begun.opens_dropping read (grows_blockEntry read).changes
      (fun inside => Facing.blockEntry (begun.safe inside) (facing.openAt_inFlow inside)) fun outside => ?_
    simp only [Scanner.blockEntry, Option.bind_eq_bind] at read
    obtain ⟨t, opened, read⟩ := Option.bind_eq_some_iff.mp read
    obtain ⟨u, dropped, read⟩ := Option.bind_eq_some_iff.mp read
    cases read
    have nothing : lowest u.key u.outerKeys = none := lowest_of_dropKey ((outerKeys_openAt opened).trans outside) dropped
    exact nothing
  explicitKey read := by
    refine begun.opens_dropping read (grows_explicitKey read).changes
      (fun inside => Facing.explicitKey (begun.safe inside) (facing.openAt_inFlow inside)) fun outside => ?_
    simp only [Scanner.explicitKey, Option.bind_eq_bind] at read
    obtain ⟨t, opened, read⟩ := Option.bind_eq_some_iff.mp read
    obtain ⟨u, dropped, read⟩ := Option.bind_eq_some_iff.mp read
    cases read
    have nothing : lowest u.key u.outerKeys = none := lowest_of_dropKey ((outerKeys_openAt opened).trans outside) dropped
    exact nothing
  value read := by
    by_cases outside : s.outerKeys = []
    · rw [outside] at lives
      obtain ⟨next', read', entered⟩ := facing.value_outside outside lives aligned read
      exact .inr ⟨next', read', .inl entered⟩
    · exact begun.opens (grows_value (fun nothing => outside nothing) read).changes
        (facing.value_inFlow outside _ read)
  named {next kind} inner read := by
    refine begun.opens_saving read (grows_named ready inner read).changes (fun saves => facing.named saves kind) ?_
    simp only [Scanner.named, Option.bind_eq_bind] at read
    obtain ⟨u, saved, read⟩ := Option.bind_eq_some_iff.mp read
    obtain ⟨_, -, read⟩ := Option.bind_eq_some_iff.mp read
    cases read
    exact ⟨u, saved, rfl⟩
  tag bang read := by
    refine begun.opens_saving read (grows_tag ready read).changes (fun saves => facing.tag saves bang) ?_
    simp only [Scanner.tag, Option.bind_eq_bind] at read
    obtain ⟨u, saved, read⟩ := Option.bind_eq_some_iff.mp read
    obtain ⟨_, -, read⟩ := Option.bind_eq_some_iff.mp read
    split at read
    · cases read
      exact ⟨u, saved, rfl⟩
    · cases read
  blockText {next isLiteral} outside read := by
    have outside : s.outerKeys = [] := by simpa [Scanner.inFlow] using outside
    refine begun.opens_dropping read (grows_blockText read).changes (fun inside => absurd outside inside) fun _ => ?_
    simp only [Scanner.blockText, Option.bind_eq_bind] at read
    obtain ⟨u, dropped, read⟩ := Option.bind_eq_some_iff.mp read
    obtain ⟨_, -, read⟩ := Option.bind_eq_some_iff.mp read
    cases read
    have nothing : lowest u.key u.outerKeys = none := lowest_of_dropKey outside dropped
    exact nothing
  singleQuoted read := facing.opens_quotedText begun ready ahead_singleQuotedFrom singleQuotedFrom_moved read
  doubleQuoted read := facing.opens_quotedText begun ready ahead_doubleQuotedFrom doubleQuotedFrom_moved read
  plainText {next} read := by
    obtain ⟨changes, saved⟩ := changes_plainText ready read
    by_cases later : mark.line < next.cursor.mark.line
    · exact .inl (.inr ⟨begun.changes changes, .inr later⟩)
    · refine begun.opens_saving read changes (fun (saves : Saves s c) other read' => ?_) saved
      obtain rfl : next = other := Option.some.inj (read.symm.trans read')
      exact facing.plainText_inLine saves inside (by omega) read

/-- In front of the first lexeme. -/
def atStart (mark : Mark) (cs : List Char) : Scanner := ⟨⟨mark, cs⟩, -1, [], none, [], true, []⟩

theorem saveKey_atStart (mark : Mark) (cs : List Char) :
    (atStart mark cs).saveKey = some { atStart mark cs with key := some ⟨false, 0, mark⟩ } := by
  have outside : ((-1 : Int) = mark.column) = False := by simp
  simp [saveKey, dropKey, atStart, Cursor.column, Scanner.mark, outside]

theorem begun_of_one {lexeme : Lexeme} (other : lexeme.kind ≠ .blockMappingStart)
    (held : ∃ later, s.lexemes = later ++ [lexeme])
    (keys : s.outerKeys = [] ∧ (s.key = none ∨ s.key = some ⟨false, 0, mark⟩) ∨
      s.key = none ∧ s.outerKeys = [some ⟨false, 0, mark⟩]) : Begun mark s := by
  refine ⟨lexeme, other, held, ?_⟩
  obtain ⟨outside, isKey | isKey⟩ | ⟨isKey, outside⟩ := keys
  · rw [outside, isKey]
    exact nofun
  · rw [outside, isKey]
    rintro _ ⟨⟩
    exact .inl rfl
  · rw [outside, isKey]
    refine ⟨nofun, ?_⟩
    rintro _ ⟨⟩
    exact .inl rfl

variable {cs : List Char}

theorem Begun.begins {second : Option Scanner} (begun : Begun mark next)
    (follows : ∃ next', second = some next' ∧ Beside site [] site.lexemes next next') :
    Matched (Lost mark next) (Opens site mark next) second := by
  obtain ⟨next', read', beside⟩ := follows
  exact .inr ⟨next', read', .inr ⟨beside, begun⟩⟩

theorem saves_atStart : Saves (atStart mark cs) c := ⟨fun _ => nofun, fun _ _ => .inr rfl⟩

theorem Facing.openAt_beginning (facing : Facing site [] site.lexemes (atStart mark cs) c)
    (aligned : mark.column = site.column) : ∃ base, ∀ t, (atStart mark cs).openAt .blockMappingStart = some t →
      ∃ u, c.openAt .blockMappingStart = some u ∧ Facing site [⟨.blockMappingStart, mark, mark⟩] base t u := by
  obtain ⟨base, opened⟩ := facing.enter rfl rfl mark c.mark
  refine ⟨base, fun t here => ?_⟩
  have column : c.cursor.column = site.column := by
    rw [facing.moved facing.ends.ne_nil, Cursor.column_moved]
    exact aligned
  have held : c.lexemes.length = site.lexemes.length := by
    obtain ⟨n, nothing, length⟩ := facing.length
    obtain rfl : n = 0 := nothing.symm
    simpa using length
  have flow : c.inFlow = false := facing.inFlow
  have allowed : c.keyAllowed = true := facing.allowed
  refine ⟨c.openBlock c.cursor.column c.lexemes.length .blockMappingStart c.mark, ?_, ?_⟩
  · rw [Scanner.openAt, if_neg (by simp [flow]), if_pos allowed]
  · rw [column, held]
    have same : (atStart mark cs).openAt .blockMappingStart =
        some ((atStart mark cs).openBlock mark.column 0 .blockMappingStart mark) := rfl
    rw [same, aligned] at here
    cases here
    exact opened

theorem Facing.begins_quotedText (facing : Facing site [] site.lexemes (atStart mark cs) c)
    {scan : Mark → List Char → Option Scanned}
    (moves : ∀ {mark cs scanned}, scan mark cs = some scanned → EndsLine cs → EndsLine scanned.cursor.rest ∧
      scan (mark.moved site.spot) (cs ++ site.spot.more) = some (scanned.moved site.spot))
    (read : (atStart mark cs).quotedText scan = some next) :
    Matched (Lost mark next) (Opens site mark next) (c.quotedText scan) := by
  refine Begun.begins ?_ (facing.quotedText saves_atStart moves _ read)
  simp only [Scanner.quotedText, saveKey_atStart, Option.bind_eq_bind, Option.bind_some] at read
  obtain ⟨_, -, read⟩ := Option.bind_eq_some_iff.mp read
  cases read
  refine begun_of_one ?_ ⟨[], rfl⟩ (.inl ⟨rfl, .inr rfl⟩)
  rintro ⟨⟩

/-- The first lexeme. -/
theorem Facing.beginning (facing : Facing site [] site.lexemes (atStart mark cs) c)
    (aligned : mark.column = site.column) : Actions (Lost mark) (Opens site mark) (atStart mark cs) c where
  directive read := .inl (astray_directive read)
  documentMark isMark read := .inl (astray_documentMark isMark read)
  openFlow {next kind} opens read := by
    refine Begun.begins ?_ (facing.openFlow saves_atStart kind _ read)
    simp only [Scanner.openFlow, saveKey_atStart, Option.bind_eq_bind, Option.bind_some] at read
    cases read
    refine begun_of_one ?_ ⟨[], rfl⟩ (.inr ⟨rfl, rfl⟩)
    rintro rfl
    cases opens
  closeFlow {next kind} closes read := by
    refine Begun.begins ?_ (facing.closeFlow (by rintro _ ⟨⟩) kind _ read)
    cases read
    refine begun_of_one ?_ ⟨[], rfl⟩ (.inl ⟨rfl, .inl rfl⟩)
    rintro rfl
    cases closes
  flowEntry read := by
    refine Begun.begins ?_ (facing.flowEntry (by rintro _ ⟨⟩) _ read)
    cases read
    refine begun_of_one ?_ ⟨[], rfl⟩ (.inl ⟨rfl, .inl rfl⟩)
    rintro ⟨⟩
  blockEntry read := by
    have below : (-1 : Int) < mark.column := by omega
    simp [Scanner.blockEntry, Scanner.openAt, Scanner.openBlock, Scanner.inFlow, atStart, Scanner.insertAt,
      Scanner.mark, Cursor.column, below, Scanner.dropKey] at read
    subst read
    refine .inl (.inr ⟨?_, .inl (by rintro ⟨⟩)⟩)
    refine begun_of_one ?_ ⟨[_], rfl⟩ (.inl ⟨rfl, .inl rfl⟩)
    rintro ⟨⟩
  explicitKey read := by
    obtain ⟨base, opens⟩ := facing.openAt_beginning aligned
    have safe : ∀ found ∈ (atStart mark cs).key, found.number ≠ 0 := by rintro _ ⟨⟩
    obtain ⟨next', read', beside⟩ := Facing.explicitKey safe opens _ read
    exact .inr ⟨next', read', .inl ⟨_, base, beside⟩⟩
  value read := by
    obtain ⟨base, opens⟩ := facing.openAt_beginning aligned
    obtain ⟨next', read', beside⟩ := Facing.bareValue rfl (facing.key_none rfl) opens _ read
    exact .inr ⟨next', read', .inl ⟨_, base, beside⟩⟩
  named {next kind} inner read := by
    refine Begun.begins ?_ (facing.named saves_atStart kind _ read)
    simp only [Scanner.named, saveKey_atStart, Option.bind_eq_bind, Option.bind_some] at read
    obtain ⟨⟨name, cursor⟩, -, read⟩ := Option.bind_eq_some_iff.mp read
    cases read
    have notBlock : kind name ≠ .blockMappingStart := fun same => by
      have bounded := inner name
      rw [same] at bounded
      cases bounded
    exact begun_of_one notBlock ⟨[], rfl⟩ (.inl ⟨rfl, .inr rfl⟩)
  tag bang read := by
    refine Begun.begins ?_ (facing.tag saves_atStart bang _ read)
    simp only [Scanner.tag, saveKey_atStart, Option.bind_eq_bind, Option.bind_some] at read
    obtain ⟨_, -, read⟩ := Option.bind_eq_some_iff.mp read
    split at read
    · cases read
      refine begun_of_one ?_ ⟨[], rfl⟩ (.inl ⟨rfl, .inr rfl⟩)
      rintro ⟨⟩
    · cases read
  blockText {next isLiteral} outside read := by
    obtain ⟨scanned, -, read⟩ := Option.bind_eq_some_iff.mp read
    cases read
    refine .inl (.inr ⟨?_, .inl (by rintro ⟨⟩)⟩)
    refine begun_of_one ?_ ⟨[], rfl⟩ (.inl ⟨rfl, .inl rfl⟩)
    rintro ⟨⟩
  singleQuoted read := facing.begins_quotedText singleQuotedFrom_moved read
  doubleQuoted read := facing.begins_quotedText doubleQuotedFrom_moved read
  plainText {next} read := by
    have begun : Begun mark next := by
      simp only [Scanner.plainText, saveKey_atStart, Option.bind_eq_bind, Option.bind_some] at read
      obtain ⟨_, -, read⟩ := Option.bind_eq_some_iff.mp read
      cases read
      refine begun_of_one ?_ ⟨[], rfl⟩ (.inl ⟨rfl, .inr rfl⟩)
      rintro ⟨⟩
    by_cases later : mark.line < next.cursor.mark.line
    · exact .inl (.inr ⟨begun, .inr later⟩)
    · exact Begun.begins begun (facing.plainText_inLine saves_atStart (Nat.le_of_eq aligned.symm)
        (Nat.not_lt.mp later) read)

end Opening

section Run

/-- Where the text ends in the longer one. -/
def Site.Ends (site : Site) (body : List Kind) (c : Scanner) : Prop :=
  c.Arrives site.spot.column site.spot.rest site.column (outerOf site.indent site.outer site.column)
    (kinds site.lexemes ++ opening site.indent site.column ++ body)

theorem lowest_mem (key : Option PossibleKey) (outerKeys : List (Option PossibleKey)) :
    lowest key outerKeys ∈ key :: outerKeys := by
  induction outerKeys generalizing key with
  | nil => exact List.mem_cons_self
  | cons outer rest ih => exact List.mem_cons_of_mem _ (ih outer)

theorem ends_of_opens (alone : Alone body last) (sound : next.Sound) (whole : next.cursor.Whole)
    (run : next.run fuel = some last) {second : Option Scanner}
    (matched : Matched (Lost mark next) (Opens site mark next) second)
    (step : ∀ next' front base, second = some next' → Beside site front base next next' → c.Step next')
    (onward : ∀ next', Beside site [] site.lexemes next next' → Begun mark next → site.Ends body next') :
    site.Ends body c := by
  obtain lost | ⟨next', read, ⟨first, base, beside⟩ | ⟨beside, begun⟩⟩ := matched
  · exfalso
    obtain (⟨lexeme, member, stream⟩ | ⟨done, flow⟩) | ⟨begun, lost⟩ := lost
    · rw [alone.inner (ends_of_run sound whole run) lexeme member] at stream
      cases stream
    · rw [alone.outside_run sound whole run done] at flow
      cases flow
    · obtain ⟨lives, line⟩ := alone.line_le sound whole run begun
      exact lost.elim (fun other => other lives) (Nat.not_lt.mpr line)
  · have arrives := beside.arrives sound whole alone run
    have told : kinds base = kinds site.lexemes ++ opening site.indent site.column := by
      cases beside.levels with
      | late inner opens told levels levels' => exact told
    rw [told] at arrives
    exact .of_step (step next' _ _ read beside) arrives
  · exact .of_step (step next' _ _ read beside) (onward next' beside begun)

theorem Beside.indents (beside : Beside site [] site.lexemes s c) : s.indent = -1 ∧ c.indent = site.indent := by
  have levels := beside.levels
  generalize s.indent = indent at levels ⊢
  generalize c.indent = indent' at levels ⊢
  generalize s.outerIndents = outer at levels
  generalize c.outerIndents = outer' at levels
  cases levels with
  | early => exact ⟨rfl, rfl⟩

/-- The induction goes on as long as no colon has come. -/
theorem Beside.ends (beside : Beside site [] site.lexemes s c) (begun : Begun mark s)
    (aligned : mark.column = site.column) (sound : s.Sound) (whole : s.cursor.Whole) (alone : Alone body last)
    (run : s.run fuel = some last) : site.Ends body c := by
  induction fuel generalizing s c with
  | zero => cases run
  | succ fuel ih =>
    obtain ⟨t, turns, goes⟩ := run_succ run
    have changes : Changes True s t := turns.changes
    have ready := turns.ready sound
    have soundTurn := changes.sound sound
    have wholeTurn := changes.ahead.whole whole
    have endsTurn := goes.ends soundTurn wholeTurn ready
    obtain ⟨u, settled, rfl⟩ := turns
    have gaps : Changes False s (s.skipGaps (s.cursor.rest.length + 1)) := changes_skipGaps s _
    have begunGaps := begun.changes gaps
    have closes : Changes True u (u.closeBlocks u.cursor.column) := changes_closeBlocks u _
    obtain ⟨lives, -, isFresh⟩ := alone.fresh settled (closes.ends endsTurn) begunGaps
    obtain ⟨v, settles, beside⟩ := beside.settles whole sound (by
      rintro _ rfl key member found isKey stale
      refine (begunGaps.mem key member found isKey).resolve_right fun same => ?_
      rw [same.2, isFresh] at stale
      cases stale) settled
    have begun := begunGaps.changes (changes_dropStale settled)
    have closed : u.closeBlocks u.cursor.column = u := closeBlocks_of_le (by
      rw [beside.indents.1]
      omega)
    rw [closed] at goes ready soundTurn wholeTurn
    have noted := soundTurn.noted _ (lowest_mem u.key u.outerKeys)
    rw [lives] at noted
    have line : u.cursor.mark.line ≤ mark.line := by
      rw [cursor_dropStale settled]
      exact line_le_of_not_isStale isFresh
    obtain ⟨done, -⟩ | ⟨ch, rest, next, here, read, run⟩ := goes
    · have start := (wholeTurn.resolve_left fun ended => ended.ne_nil done).2
      exact absurd (line_lt_of_noted noted done start) (Nat.not_lt.mpr line)
    · obtain ⟨_, -, ahead⟩ := noted _ rfl
      have inside : site.column ≤ u.cursor.column := aligned ▸ ahead.column_le line
      have ready := ready (here ▸ List.cons_ne_nil ch rest)
      have facing := beside.facing wholeTurn here read
      have grows := lexeme_grows ready here read
      have onward := grows.changes.weaken
      have column : v.cursor.column = u.cursor.column := beside.column_eq facing.ends.ne_nil
      have closed' : v.closeBlocks v.cursor.column = v := closeBlocks_of_le (by
        have deep := site.deep
        rw [beside.indents.2, column]
        omega)
      refine ends_of_opens alone (onward.sound soundTurn) (onward.ahead.whole wholeTurn) run
        ((facing.opening begun ready lives aligned ahead.line_le inside).lexeme facing here read) ?_ ?_
      · intro next' front base read' beside'
        refine Beside.step settles beside' (beside.rest_eq here) (length_le_of_lexeme ready here read) ?_
        rw [closed']
        exact read'
      · exact fun next' beside' begun' =>
          ih beside' begun' (onward.sound soundTurn) (onward.ahead.whole wholeTurn) run

theorem run_start {cs : List Char} (opens : OpensLine cs)
    (run : (start (List.replicate n ' ' ++ cs)).run (fuel + 1) = some last) :
    (atStart ⟨n, 0, n⟩ cs).Sound ∧ (atStart ⟨n, 0, n⟩ cs).Goes fuel last := by
  obtain ⟨t, turns, goes⟩ := run_succ run
  have changes : Changes True _ t := turns.changes
  have sound := changes.sound (sound_start _)
  obtain ⟨u, settled, rfl⟩ := turns
  have gaps : (start (List.replicate n ' ' ++ cs)).skipGaps (List.length (List.replicate n ' ' ++ cs) + 1) =
      atStart ⟨n, 0, n⟩ cs := by
    have landing := skipGaps_landing (s := start []) opens n .start (List.length (List.replicate n ' ' ++ cs))
    rw [Mark.after_spaces] at landing
    simpa [Mark.start, start, atStart] using landing
  have same : u = atStart ⟨n, 0, n⟩ cs := by
    have settled : (atStart ⟨n, 0, n⟩ cs).dropStale = some u := gaps ▸ settled
    simpa [dropStale, atStart] using settled.symm
  have closed : u.closeBlocks u.cursor.column = atStart ⟨n, 0, n⟩ cs := by
    rw [same]
    exact closeBlocks_of_le (by show (-1 : Int) ≤ _; omega)
  rw [closed] at goes sound
  exact ⟨sound, goes⟩

/-- A block mapping that is alone in its text is read in the same way among other lines. -/
theorem Alone.arrives (alone : Alone body last) {cs : List Char}
    (run : (start (List.replicate n ' ' ++ cs)).run fuel = some last) (opens : OpensLine cs) (ends : EndsLine cs)
    {rest : List Char} {column : Nat} {indent : Int} {outer : List Int} {read : List Kind}
    (atLine : c.AtLine ⟨mark, cs ++ (List.replicate column ' ' ++ rest)⟩ indent outer read)
    (aligned : mark.column = n) (near : mark.column ≤ mark.index) (deep : indent ≤ n) (shallow : column ≤ n)
    (opensRest : OpensLine rest) :
    c.Arrives column rest n (outerOf indent outer n) (read ++ opening indent n ++ body) := by
  obtain _ | fuel := fuel
  · cases run
  obtain ⟨sound, goes⟩ := run_start opens run
  obtain ⟨t, lexemes, settles, here, rfl, closed⟩ := atLine
  obtain ⟨done, -⟩ | ⟨ch, rest', next, same, read, run⟩ := goes
  · exact absurd done ends.ne_nil
  let site : Site := ⟨⟨mark.index - n, mark.line, column, rest, opensRest⟩, n, indent, outer, lexemes, deep, shallow⟩
  have whole : (atStart ⟨n, 0, n⟩ cs).cursor.Whole := .inl ends
  have closed : t.closeBlocks mark.column = ⟨⟨mark, cs ++ (List.replicate column ' ' ++ rest)⟩, indent, outer, none, [],
      true, lexemes⟩ :=
    closed.trans (closeBlocks_of_le (by rw [Cursor.column, aligned]; exact deep))
  have moved : mark = Mark.moved site.spot ⟨n, 0, n⟩ := by
    obtain ⟨index, line, column⟩ := mark
    obtain rfl : column = n := aligned
    simp only [Mark.moved, site, Mark.mk.injEq, Nat.zero_add, and_true]
    have near : column ≤ index := near
    omega
  have beside : Beside site [] site.lexemes (atStart ⟨n, 0, n⟩ cs) (t.closeBlocks mark.column) := by
    rw [closed]
    refine ⟨?_, rfl, .none, .nil, ⟨[], [], rfl, rfl, rfl⟩, .early, fun _ _ => rfl⟩
    rw [Cursor.landed_of_ne_nil ends.ne_nil]
    show (⟨mark, _⟩ : Cursor) = ⟨Mark.moved site.spot ⟨n, 0, n⟩, _⟩
    rw [← moved]
    rfl
  have facing := beside.facing whole same read
  have ready : (atStart ⟨n, 0, n⟩ cs).Ready := ⟨ends.ne_nil, fun _ => by show (-1 : Int) ≤ _; omega⟩
  have grows := lexeme_grows ready same read
  have onward := grows.changes.weaken
  have cs_eq : cs = ch :: rest' := same
  show site.Ends body c
  refine ends_of_opens alone (onward.sound sound) (onward.ahead.whole whole) run
    ((facing.beginning rfl).lexeme facing same read) ?_ ?_
  · intro next' front base read' beside'
    have column : t.cursor.column = mark.column := by rw [here]; rfl
    refine Beside.step settles beside' (?_ : _ = ch :: (rest' ++ _)) (length_le_of_lexeme ready same read) ?_
    · rw [here, cs_eq]
      rfl
    · rw [column]
      exact read'
  · exact fun next' beside' begun' =>
      beside'.ends begun' rfl (onward.sound sound) (onward.ahead.whole whole) alone run

end Run

end Scanner

end Colorization.Yaml
