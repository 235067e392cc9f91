import Colorization.Proofs.Yaml.Sound

/-! A turn of the scanner: gaps are passed over, keys that are none are dropped, the blocks that the line
closes are closed, and a lexeme is taken. -/
namespace Colorization.Yaml

namespace Scanner

variable {s t next last : Scanner} {marks : Prop} {cursor : Cursor} {fuel : Nat} {ch : Char} {rest : List Char}

section Gaps

theorem not_gap_of_isBreak (tabs : Bool) (ch : Char) (broken : isBreak ch = true) :
    (ch = ' ' || tabs && ch = '\t') = false := by
  rw [← Bool.not_eq_true]
  intro gap
  have blank := isBlank_of_gap gap
  rw [not_isBlank_of_isBreak broken] at blank
  cases blank

/-- What skipping gaps does to the cursor. -/
def gapCursor (tabs : Bool) (cursor : Cursor) : Cursor :=
  (cursor.skipOrderMark.skipWhile fun c => c = ' ' || tabs && c = '\t').skipComment

theorem ahead_gapCursor (tabs : Bool) (cursor : Cursor) : cursor.Ahead (gapCursor tabs cursor) :=
  (Cursor.ahead_skipOrderMark cursor).trans ((Cursor.ahead_skipWhile _ _).trans (Cursor.ahead_skipComment _))

theorem gapCursor_moved (spot : Spot) (tabs : Bool) (ends : EndsLine cursor.rest) :
    gapCursor tabs (cursor.moved spot) = (gapCursor tabs cursor).moved spot ∧
      EndsLine (gapCursor tabs cursor).rest := by
  obtain ⟨marked, ended⟩ := Cursor.skipOrderMark_moved spot ends
  have inLine := not_gap_of_isBreak tabs
  have blanks := Cursor.endsLine_skipWhile inLine ended
  obtain ⟨comment, ended'⟩ := Cursor.skipComment_moved spot blanks
  exact ⟨by rw [gapCursor, marked, Cursor.skipWhile_moved spot inLine ended, comment, gapCursor], ended'⟩

theorem skipGaps_succ (s : Scanner) (fuel : Nat) : s.skipGaps (fuel + 1) =
    if (gapCursor (s.inFlow || !s.keyAllowed) s.cursor).next?.any isBreak then
      skipGaps { s with
        cursor := (gapCursor (s.inFlow || !s.keyAllowed) s.cursor).skip 1
        keyAllowed := s.keyAllowed || !s.inFlow } fuel
    else { s with cursor := gapCursor (s.inFlow || !s.keyAllowed) s.cursor } := rfl

theorem gapCursor_spaces {rest : List Char} (opens : OpensLine rest) (n : Nat) (tabs : Bool) (mark : Mark) :
    gapCursor tabs ⟨mark, List.replicate n ' ' ++ rest⟩ = ⟨mark.after (List.replicate n ' '), rest⟩ :=
  skipGap_spaces (by simp) (fun _ => isBlank_of_gap) n fun c first =>
    ⟨(opens c first).1, (opens c first).2.2⟩

/-- The spaces in front of the next line. -/
theorem skipGaps_landing {rest : List Char} (opens : OpensLine rest) (n : Nat) (mark : Mark) (fuel : Nat) :
    Scanner.skipGaps { s with cursor := ⟨mark, List.replicate n ' ' ++ rest⟩ } (fuel + 1) =
      { s with cursor := ⟨mark.after (List.replicate n ' '), rest⟩ } := by
  have inLine : (⟨mark.after (List.replicate n ' '), rest⟩ : Cursor).next?.any isBreak = false := by
    cases rest with
    | nil => rfl
    | cons c rest => exact (opens c rfl).2.1
  rw [skipGaps_succ]
  simp only [gapCursor_spaces opens, inLine]
  rfl

theorem skipGaps_stays (opens : OpensLine s.cursor.rest) : s.skipGaps (fuel + 1) = s :=
  skipGaps_landing opens 0 s.cursor.mark fuel

theorem changes_skipGaps (s : Scanner) (fuel : Nat) : Changes marks s (s.skipGaps fuel) := by
  induction fuel generalizing s with
  | zero => exact .refl
  | succ fuel ih =>
    have ahead := ahead_gapCursor (s.inFlow || !s.keyAllowed) s.cursor
    rw [skipGaps_succ]
    split
    · exact .head (.pass _ (ahead.trans (Cursor.ahead_skip _ 1))) (ih _)
    · exact .single (.pass s.keyAllowed ahead)

end Gaps

section Turns

/-- Which blocks are closed. -/
theorem close_spec (column : Int) (s : Scanner) (outer : List Int) (same : s.outerIndents = outer) :
    ∃ closed indent left, s.indent :: outer = closed ++ indent :: left ∧ (∀ level ∈ closed, column < level) ∧
      (left = [] ∨ indent ≤ column) ∧ closeBlocks.close column s outer =
        { s with
          indent
          outerIndents := left
          lexemes := List.replicate closed.length ⟨.blockEnd, s.mark, s.mark⟩ ++ s.lexemes } := by
  induction outer generalizing s with
  | nil =>
    refine ⟨[], s.indent, [], rfl, by simp, .inl rfl, ?_⟩
    obtain ⟨cursor, indent, outerIndents, key, outerKeys, allowed, lexemes⟩ := s
    subst same
    rfl
  | cons first outer ih =>
    rw [closeBlocks.close]
    split
    next deep =>
      obtain ⟨closed, indent, left, levels, deeper, shallow, result⟩ :=
        ih { s.push .blockEnd s.mark s.mark with indent := first, outerIndents := outer } rfl
      refine ⟨s.indent :: closed, indent, left, by rw [List.cons_append, ← levels],
        List.forall_mem_cons.mpr ⟨deep, deeper⟩, shallow, ?_⟩
      rw [result, List.length_cons, List.replicate_succ']
      simp [Scanner.push, Scanner.mark]
    next shallow =>
      refine ⟨[], s.indent, first :: outer, rfl, by simp, .inr (Int.not_lt.mp shallow), ?_⟩
      obtain ⟨cursor, indent, outerIndents, key, outerKeys, allowed, lexemes⟩ := s
      subst same
      rfl

theorem closeBlocks_spec (outside : s.outerKeys = []) (column : Int) :
    ∃ closed indent left, s.indent :: s.outerIndents = closed ++ indent :: left ∧ (∀ level ∈ closed, column < level) ∧
      (left = [] ∨ indent ≤ column) ∧ s.closeBlocks column =
        { s with
          indent
          outerIndents := left
          lexemes := List.replicate closed.length ⟨.blockEnd, s.mark, s.mark⟩ ++ s.lexemes } := by
  rw [closeBlocks, if_neg (by simp [inFlow, outside])]
  exact close_spec column s _ rfl

theorem outerKeys_closeBlocks (s : Scanner) (column : Int) : (s.closeBlocks column).outerKeys = s.outerKeys := by
  by_cases flow : s.inFlow = true
  · rw [closeBlocks, if_pos flow]
  · obtain ⟨_, _, _, -, -, -, result⟩ := closeBlocks_spec (by simpa [inFlow] using flow) column
    rw [result]

/-- The blocks that are closed leave the current one no deeper than the column. -/
theorem Sound.indent_closeBlocks (sound : s.Sound) (outside : s.outerKeys = []) {column : Int}
    (above : -1 ≤ column) : (s.closeBlocks column).indent ≤ column := by
  obtain ⟨closed, indent, left, levels, -, shallow, result⟩ := closeBlocks_spec outside column
  rw [result]
  refine shallow.elim (fun nothing => ?_) id
  have rooted := sound.rooted
  rw [levels, nothing, List.getLast?_concat] at rooted
  exact Option.some.inj rooted ▸ above

/-- A possible key that is left is of the line at hand, so this line closes no block around it. -/
theorem Sound.indent_le (sound : t.Sound) (dropped : s.dropStale = some t) (outside : t.outerKeys = [])
    {found : PossibleKey} (isKey : t.key = some found) : t.indent ≤ t.cursor.column := by
  have fresh : isStale t.mark found = false := by
    obtain ⟨-, rfl⟩ := dropStale_eq_some_iff.mp dropped
    have left : Option.filter (fun key => !isStale s.mark key) s.key = some found := isKey
    have fresh := (Option.filter_eq_some_iff.mp left).2
    show isStale s.mark found = false
    simpa using fresh
  obtain ⟨rest, -, ahead⟩ := sound.noted _ List.mem_cons_self found isKey
  have further := ahead.column_le (line_le_of_not_isStale fresh)
  have aligned := sound.aligned found (by rw [outside]; exact isKey)
  have further : found.mark.column ≤ t.cursor.column := further
  omega

/-- The scanner when blank space and blocks are behind. -/
def Turns (s t : Scanner) : Prop :=
  ∃ u, (s.skipGaps (s.cursor.rest.length + 1)).dropStale = some u ∧ t = u.closeBlocks u.cursor.column

theorem Turns.changes (turns : s.Turns t) : Changes marks s t := by
  obtain ⟨u, settled, rfl⟩ := turns
  exact (changes_skipGaps s _).trans ((changes_dropStale settled).trans (changes_closeBlocks u _))

theorem Turns.ready (turns : s.Turns t) (sound : s.Sound) (some : t.cursor.rest ≠ []) : t.Ready := by
  obtain ⟨u, settled, rfl⟩ := turns
  have changes : Changes True s u := (changes_skipGaps s _).trans (changes_dropStale settled)
  have later : u.Sound := changes.sound sound
  refine ⟨some, fun outside => ?_⟩
  rw [outerKeys_closeBlocks] at outside
  rw [cursor_closeBlocks]
  exact later.indent_closeBlocks outside (by show (-1 : Int) ≤ ((u.cursor.mark.column : Nat) : Int); omega)

/-- What is left of a run behind the gaps of a turn. -/
def Goes (t : Scanner) (fuel : Nat) (last : Scanner) : Prop :=
  t.cursor.rest = [] ∧ t.finish = some last ∨
    ∃ ch rest next, t.cursor.rest = ch :: rest ∧ t.lexeme ch rest = some next ∧ next.run fuel = some last

theorem run_succ (run : s.run (fuel + 1) = some last) : ∃ t, s.Turns t ∧ t.Goes fuel last := by
  rw [Scanner.run, Option.bind_eq_bind] at run
  obtain ⟨u, settled, run⟩ := Option.bind_eq_some_iff.mp run
  refine ⟨_, ⟨u, settled, rfl⟩, ?_⟩
  simp only at run
  generalize here : (u.closeBlocks u.cursor.column).cursor.rest = cs at run
  cases cs with
  | nil => exact .inl ⟨here, run⟩
  | cons ch rest =>
    obtain ⟨next, read, run⟩ := Option.bind_eq_some_iff.mp run
    exact .inr ⟨ch, rest, next, here, read, run⟩

theorem finish_eq (whole : s.cursor.Whole) (done : s.cursor.rest = []) :
    s.finish = (s.closeBlocks (-1)).dropKey.map (·.push .streamEnd s.mark s.mark) := by
  have start : s.mark.column = 0 := (whole.resolve_left fun ended => ended.ne_nil done).2
  obtain ⟨⟨mark, cs⟩, indent, outerIndents, key, outerKeys, allowed, lexemes⟩ := s
  obtain rfl : cs = [] := done
  have start : mark.column = 0 := start
  simp only [finish, Scanner.mark, start, if_true, Option.bind_eq_bind, Option.map_eq_bind]
  rfl

/-- Changes lead to the end of the run, with the end of the stream behind them. -/
def Ends (s last : Scanner) : Prop :=
  ∃ t, Changes True s t ∧ kinds last.lexemes = kinds t.lexemes ++ [.streamEnd]

theorem Changes.ends (changes : Changes marks s t) (ends : t.Ends last) : s.Ends last := by
  obtain ⟨u, later, told⟩ := ends
  exact ⟨u, changes.weaken.trans later, told⟩

theorem Goes.further (goes : t.Goes fuel last) (sound : t.Sound) (whole : t.cursor.Whole)
    (ready : t.cursor.rest ≠ [] → t.Ready)
    (later : ∀ next : Scanner, next.Sound → next.cursor.Whole → next.run fuel = some last → next.Ends last) :
    t.Ends last := by
  obtain ⟨done, finished⟩ | ⟨ch, rest, next, here, read, run⟩ := goes
  · rw [finish_eq whole done, Option.map_eq_some_iff] at finished
    obtain ⟨u, dropped, rfl⟩ := finished
    exact ⟨u, (changes_closeBlocks t (-1)).trans (changes_dropKey dropped), by simp [push]⟩
  · have changes := (lexeme_grows (ready (here ▸ List.cons_ne_nil ch rest)) here read).changes
    exact changes.ends (later next (changes.sound sound) (changes.ahead.whole whole) run)

theorem ends_of_run (sound : s.Sound) (whole : s.cursor.Whole) (run : s.run fuel = some last) : s.Ends last := by
  induction fuel generalizing s with
  | zero => cases run
  | succ fuel ih =>
    obtain ⟨t, turns, goes⟩ := run_succ run
    have changes : Changes True s t := turns.changes
    exact changes.ends (goes.further (changes.sound sound) (changes.ahead.whole whole) (turns.ready sound)
      fun _ => ih)

theorem Goes.ends (goes : t.Goes fuel last) (sound : t.Sound) (whole : t.cursor.Whole)
    (ready : t.cursor.rest ≠ [] → t.Ready) : t.Ends last :=
  goes.further sound whole ready fun _ => ends_of_run

end Turns

end Scanner

end Colorization.Yaml
