import Colorization.Proofs.Yaml.Beside.FirstKey
import Colorization.Proofs.Yaml.Elsewhere
import Mathlib.Data.List.TakeWhile

/-! A text that is put together of the entries of one mapping, each read in its own way. -/
namespace Colorization.Yaml

namespace Node

variable {t t' own rest : List Lexeme} {src src' src₁ : Source} {l next last : Lexeme} {fuel : Nat} {kinds : List Kind}
  {entries : List (Node × Node)} {anchors : List (String × Nat)}

/-- The texts of the keys. -/
def keyTexts (entries : List (Node × Node)) : List (Option (Bool × String)) := entries.map (text? ·.1)

/-- The entries of a mapping take its end with them. -/
theorem length_lt_of_blockEntries (read : blockEntries fuel src = some (entries, src₁)) :
    src₁.lexemes.length < src.lexemes.length := by
  obtain ⟨own, split, closes⟩ := ((allRead (Nat.le_refl fuel)).blockEntries _ _ _ read).own
  have taken : own ≠ [] := by
    rintro rfl
    exact closes.ne_nil rfl
  have positive := List.length_pos_iff.mpr taken
  rw [split, List.length_append]
  omega

/-- With nothing of the part left, both are at what follows it. -/
theorem Parallel.lexemes_eq (parallel : Parallel t t' src src') (left : src.lexemes.length = t.length) :
    src'.lexemes = t' := by
  obtain ⟨own, own', here, there, same⟩ := parallel.lexemes
  have nothing : own = [] := by
    rw [here, List.length_append] at left
    exact List.length_eq_zero_iff.mp (by omega)
  obtain rfl : own' = [] := by simpa [nothing] using same
  exact there

/-- Entries that end their mapping are read elsewhere too, where more may follow. The induction is on the
entries. -/
theorem blockEntries_elsewhere (follow : Follow t t') (parallel : Parallel t t' src src')
    (read : blockEntries fuel src = some (entries, src₁)) (ends : src₁.lexemes.length + 1 = t.length) {more : Nat}
    (enough : fuel ≤ more) : ∃ entries' left, keyTexts entries' = keyTexts entries ∧
      entries'.length = entries.length ∧ entries.length + src₁.lexemes.length < src.lexemes.length ∧
      left.lexemes = t' ∧ left.handles = src'.handles ∧ Knows src₁.anchors left.anchors ∧
      blockEntries more src' = (blockEntries (more - entries.length) left).map fun result =>
        (entries' ++ result.1, result.2) := by
  induction fuel generalizing src src' entries more with
  | zero =>
    rw [blockEntries] at read
    cases read
  | succ fuel ih =>
    obtain ⟨more, rfl⟩ := Nat.exists_eq_add_of_le' (Nat.le_trans (Nat.succ_le_succ (Nat.zero_le fuel)) enough)
    have enough : fuel ≤ more := Nat.le_of_succ_le_succ enough
    have all := allRead enough
    obtain ⟨l, ls, l', ls', here, there, heads, further⟩ := parallel.head follow
    obtain ⟨_, anchors, handles⟩ := src
    obtain ⟨_, anchors', handles'⟩ := src'
    obtain rfl := here
    obtain rfl := there
    obtain rfl : handles' = handles := parallel.handles
    rw [blockEntries_succ, bind_apply, next_cons, Option.bind_some] at read
    cases isKind : l.kind with
    | blockEnd =>
      simp only [isKind] at read
      cases read
      have there := parallel.lexemes_eq ends
      exact ⟨[], ⟨l' :: ls', anchors', handles'⟩, rfl, rfl, by simp, there, rfl, parallel.anchors, by simp⟩
    | key =>
      simp only [isKind, bind_apply] at read
      obtain ⟨⟨key, s₁⟩, readKey, read⟩ := Option.bind_eq_some_iff.mp read
      obtain ⟨⟨value, s₂⟩, readValue, read⟩ := Option.bind_eq_some_iff.mp read
      obtain ⟨⟨later, s₃⟩, readLater, read⟩ := Option.bind_eq_some_iff.mp read
      cases read
      have first := all.entryKey l l' _ _ _ readKey
      have second := all.entryValue _ _ _ readValue
      have ends : s₃.lexemes.length + 1 = t.length := ends
      have long : t.length ≤ s₂.lexemes.length := by
        have taken : s₃.lexemes.length < s₂.lexemes.length := length_lt_of_blockEntries readLater
        omega
      have long' := Nat.le_trans long second.length_le
      obtain ⟨same, parallel⟩ := further (Nat.le_trans long' first.length_le)
      obtain ⟨key', s₁', readKey', parallel, sameKey⟩ := first.elsewhere t t' _ follow trivial parallel long'
      obtain ⟨value', s₂', readValue', parallel, -⟩ := second.elsewhere t t' _ follow trivial parallel long
      obtain ⟨entries', left, told, count, shorter, rest, handled, known, onward⟩ := ih parallel readLater enough
      refine ⟨(key', value') :: entries', left, congrArg₂ List.cons sameKey told, congrArg (· + 1) count, ?_,
        rest, ?_, known, ?_⟩
      · have lower := Nat.le_trans second.length_le first.length_le
        simp only [List.length_cons] at lower ⊢
        omega
      · rw [handled, parallel.handles, second.handles, first.handles]
      · rw [blockEntries_succ, bind_apply, next_cons, Option.bind_some]
        simp only [same, isKind, bind_apply, readKey', readValue', Option.bind_some, onward, List.length_cons,
          Nat.add_sub_add_right]
        cases blockEntries (more - later.length) left <;> rfl
    | _ =>
      simp only [isKind] at read
      cases read

/-- The lexemes of a mapping in a block are balanced up to its end. -/
theorem blockEntries_balanced {ending : Lexeme} {body : List Kind}
    (read : blockEntries fuel src = some (entries, src₁))
    (told : src.lexemes.map (·.kind) = body ++ [.blockEnd, .streamEnd])
    (ends : src₁.lexemes.dropWhile (·.kind = .documentEnd) = [ending]) :
    Kind.Balanced body ∧ src₁.lexemes = [ending] := by
  obtain ⟨own, split, inner, closes, balanced⟩ := ((allRead (Nat.le_refl fuel)).blockEntries _ _ _ read).own
  have marks : ∀ lexeme ∈ src₁.lexemes.takeWhile (·.kind = .documentEnd), lexeme.kind = .documentEnd :=
    fun lexeme member => by simpa using List.mem_takeWhile_imp member
  have parts := List.takeWhile_append_dropWhile (p := fun lexeme : Lexeme => lexeme.kind = .documentEnd)
    (l := src₁.lexemes)
  rw [ends] at parts
  rw [split, List.map_append, closes, ← parts, List.map_append] at told
  rcases (src₁.lexemes.takeWhile (·.kind = .documentEnd)).eq_nil_or_concat' with nothing | ⟨before, last, same⟩
  · rw [nothing] at told parts
    have same : (inner ++ [.blockEnd]) ++ [ending.kind] = (body ++ [.blockEnd]) ++ [.streamEnd] := by simpa using told
    have body_eq := List.append_cancel_right (List.append_inj' same rfl).1
    exact ⟨body_eq ▸ balanced, parts.symm⟩
  · exfalso
    rw [same] at told marks
    have isMark := marks last (by simp)
    have both : ((inner ++ [.blockEnd]) ++ before.map (·.kind) ++ [last.kind]) ++ [ending.kind] =
        (body ++ [.blockEnd]) ++ [.streamEnd] := by simpa using told
    have shorter := (List.append_inj' both rfl).1
    have lastKind := (List.append_inj' shorter rfl).2
    rw [isMark] at lastKind
    cases lastKind

end Node

namespace Document

open Node

/-- The document of a text where anchors are known from before, and the anchors that are known behind it. -/
def readFrom? (before : List (String × Nat)) (text : String) : Option (Document × List (String × Nat)) := do
  let lexemes ← Lexeme.scan? text
  let (document, source) ← parse (4 * lexemes.length + 4) ⟨lexemes, before, []⟩
  return (document, source.anchors)

theorem read?_eq (text : String) : read? text = (readFrom? [] text).map (·.1) := by
  cases scanned : Lexeme.scan? text with
  | none => simp [read?, readFrom?, scanned]
  | some lexemes =>
    cases parsed : parse (4 * lexemes.length + 4) ⟨lexemes, [], []⟩ <;>
      simp [read?, readFrom?, scanned, StateT.run', parsed]

variable {before after : List (String × Nat)} {properties : Properties} {entries : List (Node × Node)}

theorem parse_block {first : Lexeme} {own : List Lexeme} {fuel : Nat} {src : Source}
    (firstKind : first.kind = .blockMappingStart)
    (read : parse (fuel + 1) ⟨first :: own, before, []⟩ = some (⟨some (.mapping properties entries)⟩, src)) :
    blockEntries fuel ⟨own, before, defaultHandles⟩ = some (entries, src) ∧
      ∃ ending, src.lexemes.dropWhile (·.kind = .documentEnd) = [ending] := by
  have inBlock : Place.block ≠ .flow := by decide
  simp [parse, firstKind, directives_none firstKind, isDirective, node_mapping firstKind inBlock] at read
  obtain ⟨⟨root, src₁⟩, readRoot, read⟩ := Option.bind_eq_some_iff.mp read
  obtain ⟨result, readEntries, made⟩ := Option.bind_eq_some_iff.mp readRoot
  cases made
  obtain ⟨⟨_, src₂⟩, ends, read⟩ := Option.bind_eq_some_iff.mp read
  cases read
  simp only [rest, bind_apply, get_apply, Option.bind_some] at ends
  cases left : result.2.lexemes.dropWhile (·.kind = .documentEnd) with
  | nil =>
    rw [left] at ends
    cases ends
  | cons ending more =>
    cases more with
    | cons other more =>
      rw [left] at ends
      cases ends
    | nil =>
      rw [left] at ends
      by_cases isEnd : ending.kind = .streamEnd
      · simp only [if_pos isEnd] at ends
        cases ends
        exact ⟨readEntries, ending, left⟩
      · simp only [if_neg isEnd] at ends
        cases ends

/-- What is known of a mapping that is alone in its text, as a block without marks of the document. -/
theorem readFrom?_block {text : String} {lexemes : List Lexeme} {body : List Kind}
    (read : readFrom? before text = some (⟨some (.mapping properties entries)⟩, after))
    (scanned : Lexeme.scan? text = some lexemes)
    (told : lexemes.map (·.kind) = .blockMappingStart :: (body ++ [.blockEnd, .streamEnd])) :
    Kind.Balanced body ∧ ∃ first own last ending src, lexemes = first :: (own ++ [last, ending]) ∧
      own.map (·.kind) = body ∧ last.kind = .blockEnd ∧ src.lexemes = [ending] ∧ src.anchors = after ∧
      blockEntries (4 * body.length + 15) ⟨own ++ [last, ending], before, defaultHandles⟩ = some (entries, src) := by
  obtain ⟨first, own, rfl, firstKind, kinds⟩ := List.map_eq_cons_iff.mp told
  have count := congrArg List.length kinds
  simp only [List.length_map, List.length_append, List.length_cons, List.length_nil] at count
  rw [readFrom?, scanned, Option.bind_eq_bind, Option.bind_some] at read
  obtain ⟨⟨document, src⟩, parsed, same⟩ := Option.bind_eq_some_iff.mp read
  obtain ⟨rfl, rfl⟩ : document = _ ∧ src.anchors = after := by simpa using same
  have fuel : 4 * (first :: own).length + 4 = (4 * body.length + 15) + 1 := by
    rw [List.length_cons, count]
    omega
  rw [fuel] at parsed
  obtain ⟨readEntries, ending, ends⟩ := parse_block firstKind parsed
  obtain ⟨balanced, left⟩ := blockEntries_balanced readEntries kinds ends
  obtain ⟨inner, endings, rfl, innerKinds, endKinds⟩ := List.map_eq_append_iff.mp kinds
  obtain ⟨last, endings, rfl, lastKind, endKinds⟩ := List.map_eq_cons_iff.mp endKinds
  obtain ⟨ending', rfl, endKind⟩ := List.map_eq_singleton_iff.mp endKinds
  obtain ⟨own, split, -⟩ := ((allRead (Nat.le_refl _)).blockEntries _ _ _ readEntries).own
  have same : (inner ++ [last]) ++ [ending'] = own ++ [ending] := by
    rw [← left, ← split]
    simp
  obtain rfl : ending' = ending := List.singleton_inj.mp (List.append_inj' same rfl).2
  exact ⟨balanced, first, inner, last, ending', src, rfl, innerKinds, lastKind, left, rfl, readEntries⟩

end Document

namespace Node

open Document (defaultHandles)

variable {own rest : List Lexeme} {next : Lexeme} {kinds more : List Kind} {key : String} {block : Block}
  {told told' : List (Node × Node) → Prop} {before between after : List (String × Nat)}

/-- Lexemes of these kinds are read as entries, whatever comes behind them in their mapping. The anchors of
`before` are enough for it, and those of `after` are known then. -/
structure ReadsEntries (before : List (String × Nat)) (kinds : List Kind) (told : List (Node × Node) → Prop)
    (after : List (String × Nat)) : Prop where
  begins : ∀ kind ∈ kinds.head?, kind = .key
  reads {own : List Lexeme} {next : Lexeme} {fuel : Nat} {anchors : List (String × Nat)}
    (same : own.map (·.kind) = kinds) (follows : next.kind = .blockEnd ∨ next.kind = .key)
    (enough : 4 * kinds.length + 15 ≤ fuel) (known : Knows before anchors) (rest : List Lexeme) :
    ∃ entries anchors' left, told entries ∧ Knows after anchors' ∧ fuel ≤ left + kinds.length ∧
      blockEntries fuel ⟨own ++ next :: rest, anchors, defaultHandles⟩ =
        (blockEntries left ⟨next :: rest, anchors', defaultHandles⟩).map fun result =>
          (entries ++ result.1, result.2)

theorem ReadsEntries.weaken (reads : ReadsEntries before kinds told after)
    (weaker : ∀ entries, told entries → told' entries) : ReadsEntries before kinds told' after where
  begins := reads.begins
  reads := by
    intro own next fuel anchors same follows enough known rest
    obtain ⟨entries, anchors', left, isTold, further⟩ := reads.reads same follows enough known rest
    exact ⟨entries, anchors', left, weaker entries isTold, further⟩

/-- Entries of two kinds, one after the other. -/
def Both (told told' : List (Node × Node) → Prop) (entries : List (Node × Node)) : Prop :=
  ∃ first later, entries = first ++ later ∧ told first ∧ told' later

theorem ReadsEntries.append (first : ReadsEntries before kinds told between)
    (second : ReadsEntries between more told' after) :
    ReadsEntries before (kinds ++ more) (Both told told') after where
  begins := by
    cases kinds with
    | nil => exact second.begins
    | cons kind kinds => exact first.begins
  reads := by
    intro own next fuel anchors same follows enough known rest
    obtain ⟨own, own', rfl, kindsOwn, kindsOwn'⟩ := List.map_eq_append_iff.mp same
    rw [List.length_append] at enough ⊢
    have middle : ∃ next' rest', own' ++ next :: rest = next' :: rest' ∧
        (next'.kind = .blockEnd ∨ next'.kind = .key) := by
      cases own' with
      | nil => exact ⟨next, rest, rfl, follows⟩
      | cons next' own' => exact ⟨next', own' ++ next :: rest, rfl, .inr (second.begins _ (kindsOwn' ▸ rfl))⟩
    obtain ⟨next', rest', split, follows'⟩ := middle
    have enoughFirst : 4 * kinds.length + 15 ≤ fuel := by omega
    obtain ⟨entries, anchors', left, isTold, known', enough', readFirst⟩ :=
      first.reads kindsOwn follows' enoughFirst known rest'
    have enoughSecond : 4 * more.length + 15 ≤ left := by omega
    obtain ⟨entries', anchors'', left', isTold', known'', enough'', readSecond⟩ :=
      second.reads kindsOwn' follows enoughSecond known' rest
    refine ⟨entries ++ entries', anchors'', left', ⟨entries, entries', rfl, isTold, isTold'⟩, known'', by omega, ?_⟩
    rw [List.append_assoc, split, readFirst, ← split, readSecond, Option.map_map]
    simp only [Function.comp_def, List.append_assoc]

theorem readsEntries_printed (legible : block.Legible) (key : String) (known : List (String × Nat)) :
    ReadsEntries known (entriesKinds [(key, block)]) (TellsEntries [(key, block)]) known where
  begins := by rintro _ ⟨⟩; rfl
  reads := by
    intro own next fuel anchors same follows enough known rest
    have count := congrArg List.length same
    simp only [entriesKinds, List.append_nil] at same
    obtain ⟨mark, own, rfl, markKind, same⟩ := List.map_eq_cons_iff.mp same
    obtain ⟨name, own, rfl, nameKind, same⟩ := List.map_eq_cons_iff.mp same
    obtain ⟨colon, own, rfl, colonKind, same⟩ := List.map_eq_cons_iff.mp same
    obtain ⟨first, inner, rfl⟩ := List.exists_cons_of_ne_nil (ne_nil_of_kinds same)
    have noStop : isBlockStop first.kind = false := by
      refine not_isBlockStop_kinds block _ ?_
      rw [← same]
      rfl
    obtain ⟨fuel, rfl⟩ := Nat.exists_eq_add_of_le' (show 2 ≤ fuel by omega)
    simp only [List.length_map, List.length_cons] at count
    have enoughInner : (first :: inner).length < fuel + 1 := by
      rw [List.length_cons]
      omega
    have notEntry : next.kind ≠ .blockEntry := by rcases follows with isEnd | isKey <;> simp [*]
    obtain ⟨value, isTold, readValue⟩ := node_kinds block legible same notEntry enoughInner rest
    refine ⟨_, anchors, fuel + 1, .cons ⟨name.start, rfl⟩ isTold .nil, known, by omega, ?_⟩
    simp only [List.cons_append] at readValue ⊢
    rw [blockEntries_key markKind nameKind colonKind noStop, readValue, Option.bind_some]
    cases blockEntries (fuel + 1) ⟨next :: rest, anchors, defaultHandles⟩ <;> rfl

/-- A key without a value. -/
theorem readsEntries_bare (key : String) (known : List (String × Nat)) :
    ReadsEntries known [.key, .scalar true key, .value]
      (fun entries => ∃ name mark, Plainly true key name ∧ entries = [(name, .empty mark)]) known where
  begins := by rintro _ ⟨⟩; rfl
  reads := by
    intro own next fuel anchors same follows enough known rest
    obtain ⟨mark, own, rfl, markKind, same⟩ := List.map_eq_cons_iff.mp same
    obtain ⟨name, own, rfl, nameKind, same⟩ := List.map_eq_cons_iff.mp same
    obtain ⟨colon, rfl, colonKind⟩ := List.map_eq_singleton_iff.mp same
    obtain ⟨fuel, rfl⟩ := Nat.exists_eq_add_of_le' (show 2 ≤ fuel by omega)
    have stops : isBlockStop next.kind = true := by rcases follows with isEnd | isKey <;> simp [*, isBlockStop]
    have noStop : isBlockStop name.kind = false := by rw [nameKind]; rfl
    refine ⟨_, anchors, fuel + 1, ⟨_, colon.stop, ⟨name.start, rfl⟩, rfl⟩, known, by simp, ?_⟩
    rw [blockEntries_succ]
    simp [markKind, entryKey, noStop, node_scalar nameKind, entryValue, colonKind, stops]
    cases blockEntries (fuel + 1) ⟨next :: rest, anchors, defaultHandles⟩ <;> rfl

/-- A key with a mapping of its own. -/
theorem ReadsEntries.nest (inner : ReadsEntries before kinds told after) (key : String) :
    ReadsEntries before (.key :: .scalar true key :: .value :: .blockMappingStart :: (kinds ++ [.blockEnd]))
      (fun entries => ∃ name mark within, Plainly true key name ∧ told within ∧
        entries = [(name, .mapping ⟨mark, none, none⟩ within)]) after where
  begins := by rintro _ ⟨⟩; rfl
  reads := by
    intro own next fuel anchors same follows enough known rest
    obtain ⟨mark, own, rfl, markKind, same⟩ := List.map_eq_cons_iff.mp same
    obtain ⟨name, own, rfl, nameKind, same⟩ := List.map_eq_cons_iff.mp same
    obtain ⟨colon, own, rfl, colonKind, same⟩ := List.map_eq_cons_iff.mp same
    obtain ⟨first, own, rfl, firstKind, same⟩ := List.map_eq_cons_iff.mp same
    obtain ⟨within, ends, rfl, withinKinds, endKinds⟩ := List.map_eq_append_iff.mp same
    obtain ⟨last, rfl, lastKind⟩ := List.map_eq_singleton_iff.mp endKinds
    simp only [List.length_cons, List.length_append, List.length_nil] at enough ⊢
    obtain ⟨fuel, rfl⟩ := Nat.exists_eq_add_of_le' (show 2 ≤ fuel by omega)
    have noStop : isBlockStop first.kind = false := by rw [firstKind]; rfl
    have enoughWithin : 4 * kinds.length + 15 ≤ fuel := by omega
    obtain ⟨entries, anchors', left, isTold, known', less, readWithin⟩ :=
      inner.reads withinKinds (.inl lastKind) enoughWithin known (next :: rest)
    obtain ⟨left, rfl⟩ := Nat.exists_eq_add_of_le' (show 1 ≤ left by omega)
    refine ⟨_, anchors', fuel + 1, ⟨_, first.start, entries, ⟨name.start, rfl⟩, isTold, rfl⟩, known', by omega, ?_⟩
    simp only [List.cons_append, List.append_assoc, List.nil_append]
    rw [blockEntries_key markKind nameKind colonKind noStop, node_mapping firstKind (by decide), readWithin,
      blockEntries_end lastKind]
    simp only [Option.map_some, Option.bind_some, List.append_nil]
    cases blockEntries (fuel + 1) ⟨next :: rest, anchors', defaultHandles⟩ <;> rfl

/-- The entries of a text that is a mapping of its own. -/
theorem readsEntries_foreign {text : String} {properties : Properties} {entries : List (Node × Node)}
    {lexemes : List Lexeme}
    (read : Document.readFrom? before text = some (⟨some (.mapping properties entries)⟩, after))
    (scanned : Lexeme.scan? text = some lexemes)
    (same : lexemes.map (·.kind) = .blockMappingStart :: (kinds ++ [.blockEnd, .streamEnd])) :
    ReadsEntries before kinds (fun entries' => keyTexts entries' = keyTexts entries) after := by
  obtain ⟨-, first, own, last, ending, src, -, kindsOwn, lastKind, left, rfl, readAlone⟩ :=
    Document.readFrom?_block read scanned same
  have ends : src.lexemes.length + 1 = [last, ending].length := by rw [left]; rfl
  constructor
  · intro kind isFirst
    obtain ⟨l, own, rfl⟩ : ∃ l own', own = l :: own' := by
      cases own with
      | nil => rw [← kindsOwn] at isFirst; cases isFirst
      | cons l own => exact ⟨l, own, rfl⟩
    obtain rfl : l.kind = kind := by
      rw [← kindsOwn] at isFirst
      exact Option.some.inj isFirst
    rw [blockEntries_succ, bind_apply, List.cons_append, next_cons, Option.bind_some] at readAlone
    cases isKind : l.kind with
    | key => rfl
    | blockEnd =>
      simp only [isKind] at readAlone
      cases readAlone
      have lengths := congrArg List.length left
      simp at lengths
    | _ =>
      simp only [isKind] at readAlone
      cases readAlone
  · intro own' next fuel anchors same follows enough known rest
    have follow : Follow [last, ending] (next :: rest) := ⟨last, [ending], next, rest, rfl, rfl, lastKind, follows⟩
    have parallel : Parallel [last, ending] (next :: rest) ⟨own ++ [last, ending], before, defaultHandles⟩
        ⟨own' ++ next :: rest, anchors, defaultHandles⟩ :=
      ⟨⟨own, own', rfl, rfl, same.trans kindsOwn.symm⟩, rfl, known⟩
    obtain ⟨entries', ⟨_, anchors', _⟩, isTold, count, shorter, rfl, rfl, known', onward⟩ :=
      blockEntries_elsewhere follow parallel readAlone ends enough
    refine ⟨entries', anchors', fuel - entries.length, isTold, known', ?_, onward⟩
    have length := congrArg List.length kindsOwn
    simp only [List.length_map, List.length_append, List.length_cons, List.length_nil, left] at length shorter
    omega

end Node

end Colorization.Yaml
