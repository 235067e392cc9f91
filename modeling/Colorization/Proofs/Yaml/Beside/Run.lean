import Colorization.Proofs.Yaml.Beside.Gaps

/-! The run of the longer text follows that of the text alone. -/
namespace Colorization.Yaml

namespace Scanner

variable {site : Site} {base : List Lexeme} {first : Lexeme} {s c t u next last : Scanner} {fuel : Nat}
  {body : List Kind}

section Closing

theorem close_of_le {column : Int} (shallow : s.indent ≤ column) (outer : List Int) :
    closeBlocks.close column s outer = s := by
  cases outer with
  | nil => rfl
  | cons first outer => exact if_neg (Int.not_lt.mpr shallow)

theorem close_of_lt {column outer : Int} {rest : List Int} (deep : column < s.indent)
    (levels : s.outerIndents = outer :: rest) : closeBlocks.close column s s.outerIndents =
      closeBlocks.close column { s.push .blockEnd s.mark s.mark with indent := outer, outerIndents := rest } rest := by
  rw [levels, closeBlocks.close, if_pos deep]

/-- The blocks of the text that a line closes are the same in both places. The induction is on the blocks
above the one that the text has opened first. -/
theorem Beside.close (beside : Beside site [first] base s c) {column : Int} (deep : (site.column : Int) ≤ column) :
    Beside site [first] base (closeBlocks.close column s s.outerIndents)
      (closeBlocks.close column c c.outerIndents) := by
  obtain ⟨inner, opens, told, alone, within⟩ : ∃ inner, first.kind = .blockMappingStart ∧
      kinds base = kinds site.lexemes ++ opening site.indent site.column ∧
      s.indent :: s.outerIndents = inner ++ [(site.column : Int), -1] ∧
      c.indent :: c.outerIndents = inner ++ (site.column : Int) :: outerOf site.indent site.outer site.column := by
    cases beside.levels with
    | late inner opens told alone within => exact ⟨inner, opens, told, alone, within⟩
  induction inner generalizing s c with
  | nil =>
    rw [close_of_le ((List.cons.inj alone).1.trans_le deep), close_of_le ((List.cons.inj within).1.trans_le deep)]
    exact beside
  | cons deepest inner ih =>
    obtain ⟨level, outer⟩ := List.cons.inj alone
    obtain ⟨level', outer'⟩ := List.cons.inj within
    by_cases shallow : deepest ≤ column
    · rw [close_of_le (level.trans_le shallow), close_of_le (level'.trans_le shallow)]
      exact beside
    have further : ∃ next rest rest', inner ++ [(site.column : Int), -1] = next :: rest ∧
        inner ++ (site.column : Int) :: outerOf site.indent site.outer site.column = next :: rest' := by
      cases inner with
      | nil => exact ⟨_, _, _, rfl, rfl⟩
      | cons next inner => exact ⟨next, _, _, rfl, rfl⟩
    obtain ⟨next, rest, rest', same, same'⟩ := further
    rw [close_of_lt (level ▸ Int.not_le.mp shallow) (outer.trans same),
      close_of_lt (level' ▸ Int.not_le.mp shallow) (outer'.trans same')]
    exact ih { beside.push .blockEnd s.mark s.mark c.mark c.mark with
      levels := .late inner opens told same.symm same'.symm } same.symm same'.symm

theorem Beside.closeBlocks (beside : Beside site [first] base s c) (column : Int)
    (deep : s.inFlow = false → (site.column : Int) ≤ column) :
    Beside site [first] base (s.closeBlocks column) (c.closeBlocks column) := by
  unfold Scanner.closeBlocks
  rw [beside.inFlow]
  split
  · exact beside
  next outside => exact beside.close (deep (by simpa using outside))

end Closing

section Settling

/-- Behind the gaps the scanners stand side by side again. -/
theorem Beside.settles (beside : Beside site front base s c) (whole : s.cursor.Whole) (sound : s.Sound)
    (safe : ∀ t : Scanner, t = s.skipGaps (s.cursor.rest.length + 1) → ∀ key ∈ t.key :: t.outerKeys,
      ∀ found ∈ key, isStale t.mark found = true → found.number ≠ 0)
    (settled : (s.skipGaps (s.cursor.rest.length + 1)).dropStale = some u) :
    ∃ v, c.Settles v ∧ Beside site front base u v := by
  have changes : Changes True s (s.skipGaps (s.cursor.rest.length + 1)) := changes_skipGaps s _
  obtain ⟨v, settled', beside⟩ := (beside.skipGaps_next whole).dropStale (changes.ahead.whole whole)
    (changes.sound sound) (safe _ rfl) settled
  have changes' : Changes True c v := (changes_skipGaps c _).trans (changes_dropStale settled')
  exact ⟨v, ⟨settled', changes'.ahead.length_le⟩, beside⟩

theorem Beside.safe (beside : Beside site [first] base s c) :
    ∀ key ∈ s.key :: s.outerKeys, ∀ found ∈ key, found.number ≠ 0 := by
  have away : ∀ key key', Option.Rel (KeyMoved site.spot [first].length base.length) key key' →
      ∀ found ∈ key, found.number ≠ 0 := by
    intro key key' pair found isKey
    cases pair with
    | none => cases isKey
    | some moved =>
    cases isKey
    obtain ⟨n, number, -⟩ := moved.number
    exact number ▸ Nat.succ_ne_zero n
  intro key member
  have pairs := List.Forall₂.cons beside.key beside.outerKeys
  generalize s.key :: s.outerKeys = keys at member pairs
  generalize c.key :: c.outerKeys = keys' at pairs
  induction pairs with
  | nil => cases member
  | cons pair pairs ih =>
    rcases List.mem_cons.mp member with rfl | later
    · exact away _ _ pair
    · exact ih later

/-- No lexeme begins with a line break. -/
theorem lexeme_inLine {ch : Char} {rest : List Char} (here : s.cursor.rest = ch :: rest)
    (read : s.lexeme ch rest = some next) : isBreak ch = false := by
  rw [← Bool.not_eq_true]
  intro broken
  have one : ch ∈ ['\n', '\r', '\x85', '\u2028', '\u2029'] := by simpa [isBreak, or_assoc] using broken
  have nothing : ∀ ch' ∈ ['\n', '\r', '\x85', '\u2028', '\u2029'], ch = ch' → s.lexeme ch rest = none := by
    simp only [List.forall_mem_cons]
    refine ⟨?_, ?_, ?_, ?_, ?_, List.forall_mem_nil _⟩
    all_goals
      rintro rfl
      simp [lexeme, Cursor.atDocumentMark, Cursor.startMark, Cursor.endMark, here, beginsPlain, isGap, isBreak]
  rw [nothing ch one rfl] at read
  cases read

/-- The scanners are in front of a lexeme. -/
theorem Beside.facing (beside : Beside site front base s c) (whole : s.cursor.Whole) {ch : Char} {rest : List Char}
    (here : s.cursor.rest = ch :: rest) (read : s.lexeme ch rest = some next) : Facing site front base s c := by
  have ends : EndsLine s.cursor.rest := whole.resolve_right fun done => by simp [here] at done
  refine ⟨beside, ends, ?_⟩
  have skipped : (s.cursor.skip 1).rest = rest := by simp [Cursor.skip, here]
  rw [skipped]
  exact (here ▸ ends).tail (lexeme_inLine here read)

/-- What is read as a lexeme is a character at least. -/
theorem length_le_of_lexeme (ready : s.Ready) {ch : Char} {rest : List Char} (here : s.cursor.rest = ch :: rest)
    (read : s.lexeme ch rest = some next) : next.cursor.rest.length ≤ rest.length := by
  have shorter := (lexeme_grows ready here read).ahead.length_le
  simpa [Cursor.skip, here] using shorter

theorem Beside.rest_eq (beside : Beside site front base s c) {ch : Char} {rest : List Char}
    (here : s.cursor.rest = ch :: rest) : c.cursor.rest = ch :: (rest ++ site.spot.more) := by
  rw [beside.moved (here ▸ List.cons_ne_nil ch rest), Cursor.rest_moved, here]
  rfl

theorem Beside.column_eq (beside : Beside site front base s c) (more : s.cursor.rest ≠ []) :
    c.cursor.column = s.cursor.column := by
  rw [beside.moved more, Cursor.column_moved]

/-- A lexeme that is read in both places is a step in the longer text. -/
theorem Beside.step (settles : c.Settles u) (beside : Beside site front base next t) {ch : Char} {rest : List Char}
    (here : u.cursor.rest = ch :: (rest ++ site.spot.more)) (shorter : next.cursor.rest.length ≤ rest.length)
    (read : (u.closeBlocks u.cursor.column).lexeme ch (rest ++ site.spot.more) = some t) : c.Step t := by
  refine ⟨u, ch, rest ++ site.spot.more, settles, here, read, ?_⟩
  rw [beside.cursor]
  rcases eq_or_ne next.cursor.rest [] with done | some
  · rw [Cursor.landed_of_end done]
    simp [Spot.more]
    omega
  · rw [Cursor.landed_of_ne_nil some]
    simpa using shorter

end Settling

section Arrival

/-- The blocks that a line closes count as closed. -/
theorem AtLine.close_all {mark : Mark} {rest : List Char} {indent outside : Int} {outer outer' inner : List Int}
    {read : List Kind} (deep : ∀ level ∈ inner, (mark.column : Int) < level)
    (levels : indent :: outer = inner ++ outside :: outer') (atLine : s.AtLine ⟨mark, rest⟩ indent outer read) :
    s.AtLine ⟨mark, rest⟩ outside outer' (read ++ List.replicate inner.length .blockEnd) := by
  induction inner generalizing indent outer read with
  | nil =>
    obtain ⟨rfl, rfl⟩ := List.cons.inj levels
    simpa using atLine
  | cons deepest inner ih =>
    obtain ⟨rfl, rfl⟩ : indent = deepest ∧ outer = inner ++ outside :: outer' := List.cons.inj levels
    rw [List.forall_mem_cons] at deep
    have further : ∃ next rest', inner ++ outside :: outer' = next :: rest' := by
      cases inner with
      | nil => exact ⟨_, _, rfl⟩
      | cons next inner => exact ⟨next, _, rfl⟩
    obtain ⟨next, rest', same⟩ := further
    rw [same] at atLine
    have closed := ih deep.2 same.symm (atLine.close deep.1)
    rwa [List.append_assoc, List.singleton_append, ← List.replicate_succ] at closed

theorem kinds_closeBlocks (s : Scanner) (column : Int) :
    ∃ n, kinds (s.closeBlocks column).lexemes = kinds s.lexemes ++ List.replicate n .blockEnd := by
  by_cases flow : s.inFlow = true
  · exact ⟨0, by simp [Scanner.closeBlocks, flow]⟩
  · obtain ⟨closed, _, _, -, -, -, result⟩ := closeBlocks_spec (by simpa [inFlow] using flow) column
    exact ⟨closed.length, by simp [result, kinds]⟩

/-- The blocks that are open at the end of the text are those that its end closes. -/
theorem Alone.closes (alone : Alone body last) (sound : u.Sound) (whole : u.cursor.Whole) (done : u.cursor.rest = [])
    (column : Int) (finished : (u.closeBlocks column).finish = some last) :
    kinds u.lexemes ++ List.replicate u.outerIndents.length .blockEnd =
      .blockMappingStart :: (body ++ [.blockEnd]) := by
  rw [finish_eq (by rwa [cursor_closeBlocks]) (by rwa [cursor_closeBlocks]), Option.map_eq_some_iff] at finished
  obtain ⟨t, dropped, rfl⟩ := finished
  obtain ⟨-, rfl⟩ := dropKey_eq_some_iff.mp dropped
  obtain ⟨n, first⟩ := kinds_closeBlocks u column
  obtain ⟨m, second⟩ := kinds_closeBlocks (u.closeBlocks column) (-1)
  have same : kinds u.lexemes ++ List.replicate (n + m) .blockEnd = .blockMappingStart :: (body ++ [.blockEnd]) := by
    refine alone.kinds_eq ?_
    simp [push, second, first, List.append_assoc, List.replicate_append_replicate]
  have balance := congrArg Kind.depth same
  simp only [Kind.depth_append, sound.depth, Kind.depth_cons, alone.balanced.depth, Kind.rise, Kind.depth_nil] at balance
  rw [Kind.depth_blockEnds] at balance
  have count : n + m = u.outerIndents.length := by omega
  rwa [count] at same

/-- Behind the text the other scanner is in front of the next line. -/
theorem Beside.atLine (beside : Beside site [first] base u t) (settles : c.Settles t) (sound : u.Sound)
    (whole : u.cursor.Whole) (done : u.cursor.rest = []) (outside : u.inFlow = false) (noKey : u.key = none)
    (alone : Alone body last) (column : Int) (finished : (u.closeBlocks column).finish = some last) :
    ∃ mark : Mark, mark.column = site.spot.column ∧ c.AtLine ⟨mark, site.spot.rest⟩ site.column
      (outerOf site.indent site.outer site.column) (kinds base ++ body) := by
  have landed := beside.cursor
  rw [Cursor.landed_of_end done] at landed
  have start : u.cursor.mark.column = 0 := (whole.resolve_left fun ended => ended.ne_nil done).2
  refine ⟨(u.cursor.mark.moved site.spot).after (List.replicate site.spot.column ' '), by
    simp [Mark.after_spaces, start], ?_⟩
  obtain ⟨own, own', here, there, same⟩ := beside.lexemes
  have noFlow : t.outerKeys = [] := by simpa [Scanner.inFlow] using beside.inFlow.trans outside
  have state : t = ⟨⟨(u.cursor.mark.moved site.spot).after (List.replicate site.spot.column ' '), site.spot.rest⟩,
      t.indent, t.outerIndents, none, [], true, t.lexemes⟩ := by
    rw [← landed, ← noFlow, ← beside.key_none noKey, ← beside.ended done outside, ← beside.allowed]
  have arrived : c.AtLine ⟨(u.cursor.mark.moved site.spot).after (List.replicate site.spot.column ' '), site.spot.rest⟩
      t.indent t.outerIndents (kinds t.lexemes) := by
    refine ⟨t, t.lexemes, settles, landed, rfl, ?_⟩
    rw [← state]
  have closes := alone.closes sound whole done column finished
  have sorted := sound.sorted
  cases beside.levels with
  | late inner opens told levels levels' =>
    have deep : ∀ level ∈ inner, (site.spot.column : Int) < level := by
      intro level member
      rw [levels] at sorted
      have deeper := (List.pairwise_append.mp sorted).2.2 level member site.column List.mem_cons_self
      have shallow := site.shallow
      omega
    have closed := arrived.close_all (by simpa [Mark.after_spaces, start] using deep) levels'
    have count : u.outerIndents.length = inner.length + 1 := by
      have lengths := congrArg List.length levels
      simp only [List.length_cons, List.length_append, List.length_nil] at lengths
      omega
    have told' : body = kinds own' ++ List.replicate inner.length .blockEnd := by
      have tail : kinds [first] = [.blockMappingStart] := by simp [kinds, opens]
      rw [here, kinds_append, tail, count, List.replicate_succ', ← List.append_assoc, List.singleton_append,
        List.cons_append, List.cons_append] at closes
      have inner := List.append_cancel_right (List.cons.inj closes).2
      have own_eq : kinds own = kinds own' := by simp only [kinds, List.map_reverse, same]
      rw [← inner, own_eq]
    rw [told', ← List.append_assoc, ← kinds_append, ← there]
    exact closed

/-- No possible key is left behind the last line. -/
theorem key_dropStale_of_end (sound : s.Sound) (whole : s.cursor.Whole) (done : s.cursor.rest = [])
    (dropped : s.dropStale = some u) : u.key = none := by
  obtain ⟨-, rfl⟩ := dropStale_eq_some_iff.mp dropped
  have start := (whole.resolve_left fun ended => ended.ne_nil done).2
  show fresh s.mark s.key = none
  cases isKey : s.key with
  | none => rfl
  | some found =>
    have noted := sound.noted _ List.mem_cons_self
    rw [isKey] at noted
    have earlier := line_lt_of_noted noted done start
    have stale : isStale s.mark found = true := by simp [isStale, Scanner.mark, earlier]
    simp [fresh, Option.filter, stale]

/-- A line that closes the block of the mapping has nothing in it. -/
theorem Alone.deep (alone : Alone body last) (sound : u.Sound) (whole : u.cursor.Whole) (outside : u.inFlow = false)
    (noKey : u.key = none) {column : Nat} {inner : List Int}
    (levels : u.indent :: u.outerIndents = inner ++ [(column : Int), -1]) (held : u.lexemes ≠ []) {ch : Char} {rest : List Char}
    (here : u.cursor.rest = ch :: rest) (ready : (u.closeBlocks u.cursor.column).Ready)
    (read : (u.closeBlocks u.cursor.column).lexeme ch rest = some next) (run : next.run fuel = some last) :
    column ≤ u.cursor.column := by
  rw [← Nat.not_lt]
  intro shallow
  have noFlow : u.outerKeys = [] := by simpa [inFlow] using outside
  obtain ⟨closed, indent, left, same, -, stops, result⟩ := closeBlocks_spec noFlow u.cursor.column
  have whole' : (u.closeBlocks u.cursor.column).cursor.Whole := by rwa [cursor_closeBlocks]
  have closes : Changes True u (u.closeBlocks u.cursor.column) := changes_closeBlocks u _
  have grows := lexeme_grows ready (by rwa [cursor_closeBlocks]) read
  have sound' := closes.sound sound
  have emptied : (u.closeBlocks u.cursor.column).outerIndents = [] := by
    rw [result]
    refine stops.elim id fun low => ?_
    have sorted := sound.sorted
    rw [levels] at same sorted
    have member : indent ∈ inner ++ [(column : Int), -1] := same ▸ by simp
    refine (result ▸ sound').root ?_
    rcases List.mem_append.mp member with above | below
    · have higher := (List.pairwise_append.mp sorted).2.2 _ above _ List.mem_cons_self
      omega
    · simp only [List.mem_cons, List.not_mem_nil, or_false] at below
      show indent ≤ -1
      omega
  have frozen : (u.closeBlocks u.cursor.column).Frozen (fun _ => False) (u.closeBlocks u.cursor.column).lexemes := by
    refine ⟨⟨[], rfl⟩, ?_⟩
    rw [result]
    simp only [noFlow, noKey]
    rintro _ ⟨⟩
  have some' : (u.closeBlocks u.cursor.column).lexemes ≠ [] := by
    rw [result]
    exact List.append_ne_nil_of_right_ne_nil _ held
  have inside := (alone.frozen (ends_of_run (grows.changes.sound sound') (grows.changes.ahead.whole whole') run)
    (grows.changes.frozen (fun _ _ => id) frozen) some').2 grows.longer
  rw [sound'.depth, emptied] at inside
  exact absurd inside (by decide)

end Arrival

section Run

/-- At the end of the text the blocks above the mapping are closed in the longer text as well. -/
theorem Beside.arrives_of_end (beside : Beside site [first] base u t) (settles : c.Settles t) (sound : s.Sound)
    (whole : s.cursor.Whole) (settled : (s.skipGaps (s.cursor.rest.length + 1)).dropStale = some u)
    (done : u.cursor.rest = []) (alone : Alone body last)
    (finished : (u.closeBlocks u.cursor.column).finish = some last) :
    c.Arrives site.spot.column site.spot.rest site.column (outerOf site.indent site.outer site.column)
      (kinds base ++ body) := by
  have gaps : Changes True s (s.skipGaps (s.cursor.rest.length + 1)) := changes_skipGaps s _
  have settling : Changes True s u := gaps.trans (changes_dropStale settled)
  have turned : Changes True s (u.closeBlocks u.cursor.column) := settling.trans (changes_closeBlocks u _)
  have outside := alone.outside (turned.sound sound) (turned.ahead.whole whole) (by rwa [cursor_closeBlocks]) finished
  have outside : u.inFlow = false := by rwa [Scanner.inFlow, outerKeys_closeBlocks] at outside
  have gapsDone : (s.skipGaps (s.cursor.rest.length + 1)).cursor.rest = [] := by
    rwa [← cursor_dropStale settled]
  have noKey := key_dropStale_of_end (gaps.sound sound) (gaps.ahead.whole whole) gapsDone settled
  obtain ⟨mark, column, atLine⟩ := beside.atLine settles (settling.sound sound) (settling.ahead.whole whole) done
    outside noKey alone _ finished
  exact ⟨c, mark, .refl, column, atLine⟩

/-- Outside of brackets no line of the text begins in front of the mapping. -/
theorem Beside.deep (beside : Beside site [first] base u t) (sound : u.Sound) (whole : u.cursor.Whole)
    (settled : s.dropStale = some u) (alone : Alone body last) {ch : Char} {rest : List Char}
    (here : u.cursor.rest = ch :: rest) (ready : (u.closeBlocks u.cursor.column).Ready)
    (read : (u.closeBlocks u.cursor.column).lexeme ch rest = some next) (run : next.run fuel = some last)
    (outside : u.inFlow = false) : (site.column : Int) ≤ u.cursor.column := by
  by_contra shallow
  have noKey : u.key = none := by
    cases isKey : u.key with
    | none => rfl
    | some found =>
      have aligned := sound.indent_le settled (by simpa [Scanner.inFlow] using outside) isKey
      have deep := beside.column_le sound
      omega
  obtain ⟨own, _, lexemes, -, -⟩ := beside.lexemes
  cases beside.levels with
  | late inner opens told levels levels' =>
    have deep := alone.deep sound whole outside noKey levels (by simp [lexemes]) here ready read run
    omega

/-- The run of the text alone shows where the steps in the longer text lead. -/
theorem Beside.arrives (beside : Beside site [first] base s c) (sound : s.Sound) (whole : s.cursor.Whole)
    (alone : Alone body last) (run : s.run fuel = some last) :
    c.Arrives site.spot.column site.spot.rest site.column (outerOf site.indent site.outer site.column)
      (kinds base ++ body) := by
  induction fuel generalizing s c with
  | zero => cases run
  | succ fuel ih =>
    obtain ⟨_, turns, goes⟩ := run_succ run
    obtain ⟨u, settled, rfl⟩ := id turns
    obtain ⟨v, settles, beside⟩ := beside.settles whole sound
      (fun t same => same ▸ fun key member found isKey _ => (beside.skipGaps_next whole).safe key member found isKey)
      settled
    obtain ⟨done, finished⟩ | ⟨ch, rest, next, here, read, run⟩ := goes
    · exact beside.arrives_of_end settles sound whole settled (by rwa [cursor_closeBlocks] at done) alone finished
    have settling : Changes True s u := (changes_skipGaps s _).trans (changes_dropStale settled)
    have ready := turns.ready sound (here ▸ List.cons_ne_nil ch rest)
    have here' : u.cursor.rest = ch :: rest := by rwa [cursor_closeBlocks] at here
    have whole' := settling.ahead.whole whole
    have closed := beside.closeBlocks u.cursor.column
      (beside.deep (settling.sound sound) whole' settled alone here' ready read run)
    have facing := closed.facing (by rwa [cursor_closeBlocks]) here read
    have turned : Changes True s (u.closeBlocks u.cursor.column) := turns.changes
    have onward : Changes True s next := turned.trans (lexeme_grows ready here read).changes.weaken
    have soundNext := onward.sound sound
    have wholeNext := onward.ahead.whole whole
    have ends := ends_of_run soundNext wholeNext run
    rcases (facing.late (turned.sound sound)).lexeme facing here read with astray | ⟨next', read', beside'⟩
    · exfalso
      obtain ⟨lexeme, member, stream⟩ | ⟨done, flow⟩ := astray
      · rw [alone.inner ends lexeme member] at stream
        cases stream
      · rw [alone.outside_run soundNext wholeNext run done] at flow
        cases flow
    · rw [← beside.column_eq (here' ▸ List.cons_ne_nil ch rest)] at read'
      exact .of_step (Beside.step settles beside' (beside.rest_eq here') (length_le_of_lexeme ready here read) read')
        (ih beside' soundNext wholeNext run)

end Run

end Scanner

end Colorization.Yaml
