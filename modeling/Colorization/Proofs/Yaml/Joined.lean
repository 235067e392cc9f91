import Colorization.Proofs.Yaml.Sections

/-! Texts that follow each other in one column are read as one mapping. -/
namespace Colorization.Yaml

namespace Scanner

variable {s next : Scanner} {mark : Mark} {cursor : Cursor} {body more rest : List Char} {n column : Nat}
  {indent indent' : Int} {outer outer' : List Int} {read read' kinds kinds' : List Kind}

section Soundness

theorem Step.changes (step : s.Step next) (sound : s.Sound) : Changes True s next := by
  obtain ⟨t, ch, rest, settles, here, read, -⟩ := step
  have turns : s.Turns (t.closeBlocks t.cursor.column) := ⟨t, settles.settled, rfl⟩
  have here : (t.closeBlocks t.cursor.column).cursor.rest = ch :: rest := by rwa [cursor_closeBlocks]
  have ready := turns.ready sound (here ▸ List.cons_ne_nil ch rest)
  exact turns.changes.trans (lexeme_grows ready here read).changes.weaken

theorem Steps.changes (steps : s.Steps next) (sound : s.Sound) : Changes True s next := by
  induction steps with
  | refl => exact .refl
  | tail _ step ih => exact ih.trans (step.changes (ih.sound sound))

theorem Settles.ahead {t : Scanner} (settles : s.Settles t) : s.cursor.Ahead t.cursor :=
  have changes : Changes True s t := (changes_skipGaps s _).trans (changes_dropStale settles.settled)
  changes.ahead

/-- Steps lead to the start of a line; what holds of all scanners may be used of the one there. -/
theorem Arrives.trans_sound {column' : Nat} {rest' : List Char} (arrives : s.Arrives column rest indent outer read)
    (sound : s.Sound) (index : s.cursor.Sound)
    (later : ∀ (next : Scanner) (mark : Mark), next.Sound → next.cursor.Sound → mark.column = column →
      next.AtLine ⟨mark, rest⟩ indent outer read → next.Arrives column' rest' indent' outer' read') :
    s.Arrives column' rest' indent' outer' read' := by
  obtain ⟨next, mark, steps, here, atLine⟩ := arrives
  have changes := steps.changes sound
  exact (later next mark (changes.sound sound) (changes.ahead.sound index) here atLine).of_steps steps

end Soundness

section Yields

/-- Text in a column of which the lexemes are known, whatever line comes behind it. -/
def Yields (n : Nat) (body : List Char) (kinds : List Kind) : Prop :=
  ∀ {s : Scanner} {mark : Mark} {rest : List Char} {column : Nat} {indent : Int} {outer : List Int} {read : List Kind},
    s.Sound → s.cursor.Sound → mark.column = n → indent ≤ n → column ≤ n → OpensLine rest →
    s.AtLine ⟨mark, body ++ (List.replicate column ' ' ++ rest)⟩ indent outer read →
    s.Arrives column rest n (outerOf indent outer n) (read ++ opening indent n ++ kinds)

theorem yields_printed {key : String} {block : Block} (isName : IsName key) (legible : block.Legible) (n : Nat) :
    Yields n (entryLine n key block) (entriesKinds [(key, block)]) := by
  rintro s mark rest column indent outer read - - rfl deep shallow opens atLine
  refine arrives_entries [(key, block)] ⟨isName, legible, trivial⟩ (List.cons_ne_nil _ _) deep shallow opens ?_
  simpa [entriesBody, writtenEntries] using atLine

theorem Yields.append (first : Yields n body kinds) (second : Yields n more kinds') (opens : OpensLine more)
    (some : more ≠ []) : Yields n (body ++ (List.replicate n ' ' ++ more)) (kinds ++ kinds') := by
  intro s mark rest column indent outer read sound index here deep shallow opensRest atLine
  have opensMore : OpensLine (more ++ (List.replicate column ' ' ++ rest)) := by
    intro c isFirst
    rw [List.head?_append_of_ne_nil _ some] at isFirst
    exact opens c isFirst
  rw [List.append_assoc, List.append_assoc] at atLine
  refine (first sound index here deep (Nat.le_refl n) opensMore atLine).trans_sound sound index
    fun next mark sound index there atLine => ?_
  have arrives := second sound index there (Int.le_refl _) shallow opensRest atLine
  simpa [outerOf, opening] using arrives

/-- A key without a value. -/
theorem yields_bare {key : String} (isName : IsName key) (n : Nat) :
    Yields n (key.toList ++ [':', '\n']) [.key, .scalar true key, .value] := by
  rintro s mark rest column indent outer read - - rfl deep shallow opens atLine
  rw [List.append_assoc] at atLine
  obtain ⟨lexemes, told, steps⟩ := arrives_key isName rfl deep atLine
  exact (arrives_feed opens told).of_steps steps

/-- A key with a mapping in a deeper column. -/
theorem Yields.nest {key : String} (inner : Yields (n + indentStep) body kinds') (isName : IsName key)
    (opens : OpensLine body) (some : body ≠ []) :
    Yields n (key.toList ++ ':' :: '\n' :: (List.replicate (n + indentStep) ' ' ++ body))
      (.key :: .scalar true key :: .value :: .blockMappingStart :: (kinds' ++ [.blockEnd])) := by
  rintro s mark rest column indent outer read sound index rfl deep shallow opensRest atLine
  rw [List.append_assoc, List.cons_append, List.cons_append, List.append_assoc] at atLine
  obtain ⟨lexemes, told, steps⟩ := arrives_key isName rfl deep atLine
  have opensInner : OpensLine (body ++ (List.replicate column ' ' ++ rest)) := by
    intro c isFirst
    rw [List.head?_append_of_ne_nil _ some] at isFirst
    exact opens c isFirst
  have deeper : (mark.column : Int) < (mark.column + indentStep : Nat) := by
    rw [indentStep]
    omega
  have shallow' : column ≤ mark.column + indentStep := Nat.le_add_right_of_le shallow
  have arrives : s.Arrives column rest (mark.column + indentStep : Nat) (mark.column :: outerOf indent outer mark.column)
      (kinds lexemes ++ [.blockMappingStart] ++ kinds') := by
    refine ((arrives_feed opensInner rfl).of_steps steps).trans_sound sound index
      fun next inside sound index here atLine => ?_
    have within := inner sound index here (Int.le_of_lt deeper) shallow' opensRest atLine
    rwa [outerOf, if_pos deeper, opening, if_pos deeper] at within
  refine arrives.trans fun next ended here within => ?_
  have shallower : (ended.column : Int) < (mark.column + indentStep : Nat) := by
    rw [here]
    omega
  subst here
  simpa [told] using arrives_of_atLine (within.close shallower)

/-- A text that is a mapping of its own. -/
theorem yields_foreign {last : Scanner} {fuel : Nat} (alone : Alone kinds last)
    (run : (start (List.replicate n ' ' ++ body)).run fuel = some last) (opens : OpensLine body) (ends : EndsLine body) :
    Yields n body kinds := by
  intro s mark rest column indent outer read sound index here deep shallow opensRest atLine
  obtain ⟨t, lexemes, settles, cursor, told, closed⟩ := id atLine
  have near : t.cursor.Sound := settles.ahead.sound index
  rw [cursor] at near
  exact alone.arrives run opens ends atLine here near deep shallow opensRest

end Yields

end Scanner

section Breaks

variable {cs more : List Char}

theorem unifyBreaks_cons {c : Char} (notReturn : c ≠ '\r') (cs : List Char) :
    unifyBreaks (c :: cs) = (if c = '\x85' then '\n' else c) :: unifyBreaks cs := by
  rw [unifyBreaks.eq_3 _ _ (by rintro _ rfl; exact absurd rfl notReturn)]
  simp [notReturn]

/-- Line breaks are unified part by part unless one of them is split. -/
theorem unifyBreaks_append (cs : List Char) (whole : more.head? ≠ some '\n') :
    unifyBreaks (cs ++ more) = unifyBreaks cs ++ unifyBreaks more := by
  fun_induction unifyBreaks cs with
  | case1 => rfl
  | case2 rest ih => rw [List.cons_append, List.cons_append, unifyBreaks, ih, List.cons_append]
  | case3 c rest single ih =>
    rw [List.cons_append, unifyBreaks.eq_3, ih, List.cons_append]
    rintro rest' rfl same
    cases rest with
    | nil => exact whole (by rw [← List.nil_append more, same]; rfl)
    | cons d rest => exact single rest rfl (by rw [(List.cons.inj same).1])

theorem unifyBreaks_spaces (n : Nat) (cs : List Char) :
    unifyBreaks (List.replicate n ' ' ++ cs) = List.replicate n ' ' ++ unifyBreaks cs := by
  induction n with
  | zero => rfl
  | succ n ih => rw [List.replicate_succ, List.cons_append, unifyBreaks_cons (by decide), ih]; rfl

theorem OpensLine.unifyBreaks (opens : OpensLine cs) : OpensLine (unifyBreaks cs) := by
  cases cs with
  | nil => exact opens
  | cons c cs =>
    obtain ⟨-, inLine, -⟩ := opens c rfl
    have plain : c ≠ '\r' ∧ c ≠ '\x85' := by
      constructor
      all_goals
        rintro rfl
        cases inLine
    rw [unifyBreaks_cons plain.1, if_neg plain.2]
    exact opens

theorem EndsLine.unifyBreaks (ends : EndsLine cs) : EndsLine (unifyBreaks cs) := by
  fun_induction Yaml.unifyBreaks cs with
  | case1 => exact ends
  | case2 rest ih =>
    rcases eq_or_ne rest [] with rfl | some
    · exact ⟨'\n', rfl, rfl⟩
    · exact (ih ((ends.skip (List.cons_ne_nil _ _)).skip some)).append ['\n']
  | case3 c rest single ih =>
    rcases eq_or_ne rest [] with rfl | some
    · by_cases other : c = '\r' ∨ c = '\x85'
      · exact ⟨'\n', by simp [Yaml.unifyBreaks, other], rfl⟩
      · simpa [Yaml.unifyBreaks, other] using ends
    · exact (ih (ends.skip some)).append [_]

end Breaks

section Lists

variable {n : Nat} {text more : List Char} {told told' : List (Node × Node) → Prop} {key : String} {block : Block}
  {before between after : List (String × Nat)}

/-- Whole lines in a column that are read as entries of a mapping, of which something is told. The anchors of
`before` are enough for it, and those of `after` are known behind them. -/
structure Lists (n : Nat) (before : List (String × Nat)) (text : List Char) (told : List (Node × Node) → Prop)
    (after : List (String × Nat)) : Prop where
  allowed : ∀ c ∈ text, isAllowed c = true
  lines : ∃ body kinds, unifyBreaks text = List.replicate n ' ' ++ body ∧ body ≠ [] ∧ OpensLine body ∧
    Scanner.Yields n body kinds ∧ Node.ReadsEntries before kinds told after

theorem Lists.head?_ne (listed : Lists n before text told after) : text.head? ≠ some '\n' := by
  obtain ⟨body, -, same, some, opens, -, -⟩ := listed.lines
  intro broken
  obtain ⟨rest, rfl⟩ := List.head?_eq_some_iff.mp broken
  rw [unifyBreaks_cons (by decide), if_neg (by decide)] at same
  cases n with
  | zero =>
    have first := (opens '\n' (by rw [← List.nil_append body, ← List.replicate_zero, ← same]; rfl)).2.1
    cases first
  | succ n => cases same

theorem Lists.weaken (listed : Lists n before text told after) (weaker : ∀ entries, told entries → told' entries) :
    Lists n before text told' after where
  allowed := listed.allowed
  lines := by
    obtain ⟨body, kinds, same, some, opens, yields, reads⟩ := listed.lines
    exact ⟨body, kinds, same, some, opens, yields, reads.weaken weaker⟩

/-- Entries one after the other. -/
theorem Lists.append (first : Lists n before text told between) (second : Lists n between more told' after) :
    Lists n before (text ++ more) (Node.Both told told') after where
  allowed := List.forall_mem_append.mpr ⟨first.allowed, second.allowed⟩
  lines := by
    have whole := second.head?_ne
    obtain ⟨body, kinds, same, some, opens, yields, reads⟩ := first.lines
    obtain ⟨body', kinds', same', some', opens', yields', reads'⟩ := second.lines
    refine ⟨body ++ (List.replicate n ' ' ++ body'), kinds ++ kinds', ?_, by simp [some], ?_,
      yields.append yields' opens' some', reads.append reads'⟩
    · rw [unifyBreaks_append text whole, same, same', List.append_assoc]
    · intro c isFirst
      rw [List.head?_append_of_ne_nil _ some] at isFirst
      exact opens c isFirst

theorem lists_of_printed {body : List Char} {kinds : List Kind} (printed : Printed (List.replicate n ' ' ++ body))
    (some : body ≠ []) (opens : OpensLine body) (yields : Scanner.Yields n body kinds)
    (reads : Node.ReadsEntries before kinds told after) :
    Lists n before (List.replicate n ' ' ++ body) told after where
  allowed := fun c member => isAllowed_of_isPrintable (printed c member)
  lines := ⟨body, kinds, unifyBreaks_of_isPrintable printed, some, opens, yields, reads⟩

theorem opensLine_name (isName : IsName key) (rest : List Char) : OpensLine (key.toList ++ rest) := by
  obtain ⟨some, -, chars⟩ := isName
  obtain ⟨c, cs, same⟩ := List.exists_cons_of_ne_nil some
  rw [same]
  exact opensLine_of_isNameChar (chars c (same ▸ List.mem_cons_self)) _

/-- An entry as it is printed. -/
theorem lists_printed (isName : IsName key) (legible : block.Legible) (n : Nat) (known : List (String × Nat)) :
    Lists n known (writtenEntries n [(key, block)]) (TellsEntries [(key, block)]) known := by
  have written : writtenEntries n [(key, block)] = List.replicate n ' ' ++ entryLine n key block := by
    simp [writtenEntries, entryLine]
  rw [written]
  refine lists_of_printed ?_ ?_ (opensLine_name isName _) (Scanner.yields_printed isName legible n)
    (Node.readsEntries_printed legible key known)
  · rw [← written]
    exact printed_entries [(key, block)] ⟨isName, legible, trivial⟩ n
  · simp [entryLine]

/-- A key without a value. -/
theorem lists_bare (isName : IsName key) (n : Nat) (known : List (String × Nat)) :
    Lists n known (List.replicate n ' ' ++ (key.toList ++ [':', '\n']))
      (fun entries => ∃ name mark, Plainly true key name ∧ entries = [(name, .empty mark)]) known := by
  refine lists_of_printed ?_ (by simp) (opensLine_name isName _) (Scanner.yields_bare isName n)
    (Node.readsEntries_bare key known)
  exact (printed_spaces n).append (isName.printed.append (.cons rfl (.cons rfl printed_nil)))

/-- A key with a mapping of its own. -/
theorem Lists.nest {inner : List Char} (listed : Lists (n + indentStep) before inner told after)
    (isName : IsName key) : Lists n before (List.replicate n ' ' ++ (key.toList ++ ':' :: '\n' :: inner))
      (fun entries => ∃ name mark within, Plainly true key name ∧ told within ∧
        entries = [(name, .mapping ⟨mark, none, none⟩ within)]) after := by
  have printed : Printed (List.replicate n ' ' ++ (key.toList ++ [':', '\n'])) :=
    (printed_spaces n).append (isName.printed.append (.cons rfl (.cons rfl printed_nil)))
  have split : List.replicate n ' ' ++ (key.toList ++ ':' :: '\n' :: inner) =
      (List.replicate n ' ' ++ (key.toList ++ [':', '\n'])) ++ inner := by simp
  obtain ⟨body, kinds, same, some, opens, yields, reads⟩ := listed.lines
  rw [split]
  refine ⟨List.forall_mem_append.mpr ⟨fun c member => isAllowed_of_isPrintable (printed c member), listed.allowed⟩,
    _, _, ?_, ?_, opensLine_name isName _, yields.nest isName opens some, reads.nest key⟩
  · rw [unifyBreaks_append _ listed.head?_ne, unifyBreaks_of_isPrintable printed, same]
    simp
  · simp

/-- Whole lines in a column that are a mapping of their own. -/
structure Foreign (n : Nat) (before : List (String × Nat)) (text : String) (entries : List (Node × Node))
    (after : List (String × Nat)) : Prop where
  begins : ∃ body, text.toList = List.replicate n ' ' ++ body ∧ OpensLine body
  ends : EndsLine text.toList
  block : ∃ lexemes body, Lexeme.scan? text = some lexemes ∧
    lexemes.map (·.kind) = .blockMappingStart :: (body ++ [.blockEnd, .streamEnd])
  reads : ∃ properties, Document.readFrom? before text = some (⟨some (.mapping properties entries)⟩, after)

theorem EndsLine.after_spaces {body : List Char} (ends : EndsLine (List.replicate n ' ' ++ body)) :
    body ≠ [] ∧ EndsLine body := by
  have some : body ≠ [] := by
    rintro rfl
    obtain ⟨c, isLast, broken⟩ := ends
    rw [List.append_nil] at isLast
    obtain rfl : c = ' ' := List.eq_of_mem_replicate (List.mem_of_getLast? isLast)
    cases broken
  exact ⟨some, (endsLine_append some).mp ends⟩

theorem lists_foreign {text : String} {entries : List (Node × Node)}
    (foreign : Foreign n before text entries after) : Lists n before text.toList
      (fun entries' => Node.keyTexts entries' = Node.keyTexts entries) after := by
  obtain ⟨lexemes, kinds, scanned, told⟩ := foreign.block
  obtain ⟨properties, read⟩ := foreign.reads
  obtain ⟨body, split, opens⟩ := foreign.begins
  have ends := foreign.ends.unifyBreaks
  have balanced := (Document.readFrom?_block read scanned told).1
  have reads := Node.readsEntries_foreign read scanned told
  rw [Lexeme.scan?] at scanned
  split at scanned
  case isFalse => cases scanned
  case isTrue allowed =>
    obtain ⟨last, run, made⟩ := Option.bind_eq_some_iff.mp scanned
    obtain rfl : last.lexemes.reverse = lexemes := Option.some.inj made
    rw [split, unifyBreaks_spaces] at run ends
    obtain ⟨some, endsBody⟩ := ends.after_spaces
    have alone : Scanner.Alone kinds last := ⟨told, balanced⟩
    refine ⟨List.all_eq_true.mp allowed, unifyBreaks body, kinds, ?_, some, opens.unifyBreaks,
      Scanner.yields_foreign alone run opens.unifyBreaks endsBody, reads⟩
    rw [split, unifyBreaks_spaces]

/-- Parts one after the other, each with what the parts before it leave. -/
def Following {α σ : Type} (fits : σ → α → σ → Prop) : σ → List α → σ → Prop
  | before, [], after => after = before
  | before, part :: parts, after => ∃ between, fits before part between ∧ Following fits between parts after

/-- The induction is on the parts; a single one is the last. -/
theorem lists_parts {α : Type} {fits : List (String × Nat) → α → List (String × Nat) → Prop} {written : α → List Char}
    {told : α → List (Node × Node) → Prop} {part : α} {parts : List α}
    (fit : Following fits before (part :: parts) after)
    (each : ∀ {before part after}, fits before part after → Lists n before (written part) (told part) after) : Lists n before ((part :: parts).flatMap written)
      (fun entries => ∃ pieces, List.Forall₂ told (part :: parts) pieces ∧ entries = pieces.flatten) after := by
  obtain ⟨between, first, later⟩ := fit
  induction parts generalizing before part between with
  | nil =>
    obtain rfl : after = between := later
    rw [List.flatMap_singleton]
    exact (each first).weaken fun entries isTold => ⟨[entries], .cons isTold .nil, by simp⟩
  | cons next parts ih =>
    obtain ⟨between', second, later⟩ := later
    rw [List.flatMap_cons]
    refine ((each first).append (ih between' second later)).weaken ?_
    rintro _ ⟨entries, _, rfl, isTold, pieces, areTold, rfl⟩
    exact ⟨entries :: pieces, .cons isTold areTold, rfl⟩

/-- Entries in the first column are a document of their own. -/
theorem Lists.read? (listed : Lists 0 [] text told after) : ∃ mark entries, told entries ∧
    Document.read? (String.ofList text) = some ⟨some (.mapping ⟨mark, none, none⟩ entries)⟩ := by
  obtain ⟨body, kinds, same, some, opens, yields, reads⟩ := listed.lines
  have allowed : text.all isAllowed = true := List.all_eq_true.mpr listed.allowed
  rw [List.replicate_zero, List.nil_append] at same
  have begins : (Scanner.start body).AtLine ⟨.start, body ++ (List.replicate 0 ' ' ++ [])⟩ (-1) [] [] := by
    rw [List.replicate_zero, List.append_nil, List.append_nil]
    exact Scanner.atLine_here opens nofun
  have arrives : (Scanner.start body).Arrives 0 [] 0 [-1] (.blockMappingStart :: kinds) :=
    yields (Scanner.sound_start body) (Nat.le_refl 0) rfl (by decide) (Nat.le_refl 0) (by simp [OpensLine]) begins
  obtain ⟨lexemes, scanned, kindsRead⟩ := scan?_of_arrives allowed same arrives
  refine Document.read?_of_block scanned kindsRead fun own last ending kindsOwn lastKind => ?_
  have enough : 4 * kinds.length + 15 ≤ 4 * own.length + 15 := by rw [← kindsOwn, List.length_map]
  obtain ⟨entries, anchors, left, isTold, -, less, read⟩ :=
    reads.reads kindsOwn (.inl lastKind) enough (fun _ known => known) [ending]
  obtain ⟨left, rfl⟩ := Nat.exists_eq_add_of_le' (show 1 ≤ left by omega)
  refine ⟨entries, anchors, isTold, ?_⟩
  rw [read, blockEntries_end lastKind, Option.map_some, List.append_nil]

end Lists

end Colorization.Yaml
