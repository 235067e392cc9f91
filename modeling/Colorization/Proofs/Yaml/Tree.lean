import Colorization.Proofs.Yaml.Scan
import Colorization.Yaml.Node

/-! A printed mapping is read as the tree of its entries. -/
namespace Colorization.Yaml

open Node (Parse Source Place)

/-- A scalar without properties. -/
def Plainly (plain : Bool) (text : String) (node : Node) : Prop :=
  ∃ mark, node = .scalar ⟨mark, none, none⟩ plain text

mutual

/-- The node is the tree of the block; only its places are left open. -/
inductive Tells : Block → Node → Prop where
  | word {text : String} {node : Node} : Plainly true text node → Tells (.word text) node
  | text {value : String} {node : Node} : Plainly (Style.choose value).isPlain value node →
      Tells (.text value) node
  | list {items : List String} {nodes : List Node} (mark : Mark) :
      List.Forall₂ (fun item => Plainly (Style.choose item).isPlain item) items nodes →
      Tells (.list items) (.sequence ⟨mark, none, none⟩ nodes)
  | entries {blocks : List (String × Block)} {nodes : List (Node × Node)} (mark : Mark) :
      TellsEntries blocks nodes → Tells (.entries blocks) (.mapping ⟨mark, none, none⟩ nodes)

inductive TellsEntries : List (String × Block) → List (Node × Node) → Prop where
  | nil : TellsEntries [] []
  | cons {key : String} {block : Block} {rest : List (String × Block)} {name value : Node}
      {more : List (Node × Node)} : Plainly true key name → Tells block value → TellsEntries rest more →
      TellsEntries ((key, block) :: rest) ((name, value) :: more)

end

section Parsing

variable {α β : Type} {lexeme next : Lexeme} {lexemes rest : List Lexeme} {anchors : List (String × Nat)}
  {handles : List (String × String)} {plain : Bool} {text : String} {place : Place}

@[simp] theorem bind_apply (first : Parse α) (later : α → Parse β) (source : Source) :
    (first >>= later) source = (first source).bind fun result => later result.1 result.2 := rfl

@[simp] theorem map_apply (change : α → β) (first : Parse α) (source : Source) :
    (change <$> first) source = (first source).bind fun result => some (change result.1, result.2) := rfl

@[simp] theorem pure_apply (value : α) (source : Source) :
    (pure value : Parse α) source = some (value, source) := rfl

@[simp] theorem get_apply (source : Source) : (get : Parse Source) source = some (source, source) := rfl

@[simp] theorem peek_cons :
    Node.peek ⟨lexeme :: lexemes, anchors, handles⟩ = some (lexeme, ⟨lexeme :: lexemes, anchors, handles⟩) :=
  rfl

@[simp] theorem skip_cons :
    Node.skip ⟨lexeme :: lexemes, anchors, handles⟩ = some ((), ⟨lexemes, anchors, handles⟩) := rfl

@[simp] theorem next_cons :
    Node.next ⟨lexeme :: lexemes, anchors, handles⟩ = some (lexeme, ⟨lexemes, anchors, handles⟩) := rfl

theorem node_scalar (kind : lexeme.kind = .scalar plain text) (fuel : Nat) :
    Node.node place (fuel + 1) ⟨lexeme :: rest, anchors, handles⟩ =
      some (.scalar ⟨lexeme.start, none, none⟩ plain text, ⟨rest, anchors, handles⟩) := by
  simp [Node.node, Node.properties, kind]

theorem plainItems_nil (ends : next.kind ≠ .blockEntry) (fuel : Nat) :
    Node.plainItems (fuel + 1) ⟨next :: rest, anchors, handles⟩ =
      some ([], ⟨next :: rest, anchors, handles⟩) := by
  rw [Node.plainItems]
  simp

theorem plainItems_cons {dash item : Lexeme} (dashKind : dash.kind = .blockEntry)
    (itemKind : item.kind = .scalar plain text) (fuel : Nat) :
    Node.plainItems (fuel + 2) ⟨dash :: item :: rest, anchors, handles⟩ =
      (Node.plainItems (fuel + 1) ⟨rest, anchors, handles⟩).bind fun result =>
        some (.scalar ⟨item.start, none, none⟩ plain text :: result.1, result.2) := by
  rw [Node.plainItems]
  simp [dashKind, itemKind, Node.isBlockStop, node_scalar itemKind]

/-- One item after another, up to a lexeme that is no dash. The induction is on the items. -/
theorem plainItems_kinds {items : List String} {own : List Lexeme}
    (kinds : own.map (·.kind) = items.flatMap fun item => [.blockEntry, Scanner.scalarKind item])
    (ends : next.kind ≠ .blockEntry) {fuel : Nat} (enough : own.length ≤ fuel + 1) (rest : List Lexeme)
    (anchors : List (String × Nat)) (handles : List (String × String)) :
    ∃ nodes, List.Forall₂ (fun item => Plainly (Style.choose item).isPlain item) items nodes ∧
      Node.plainItems (fuel + 1) ⟨own ++ next :: rest, anchors, handles⟩ =
        some (nodes, ⟨next :: rest, anchors, handles⟩) := by
  induction items generalizing own fuel with
  | nil =>
    obtain rfl : own = [] := by simpa using kinds
    exact ⟨[], .nil, plainItems_nil ends fuel⟩
  | cons item items ih =>
    obtain _ | ⟨dash, _ | ⟨scalar, own⟩⟩ := own
    · simp at kinds
    · simp at kinds
    · simp only [List.map_cons, List.flatMap_cons, List.cons_append, List.nil_append,
        List.cons.injEq] at kinds
      obtain ⟨dashKind, itemKind, kinds⟩ := kinds
      obtain _ | fuel := fuel
      · simp at enough
      · simp only [List.length_cons] at enough
        have enough : own.length ≤ fuel + 1 := by omega
        obtain ⟨nodes, told, read⟩ := ih kinds enough
        refine ⟨_, .cons ⟨scalar.start, rfl⟩ told, ?_⟩
        rw [List.cons_append, List.cons_append, plainItems_cons dashKind itemKind, read]
        rfl

theorem node_items {items : List String} {dash : Lexeme} {own : List Lexeme}
    (dashKind : dash.kind = .blockEntry)
    (kinds : (dash :: own).map (·.kind) = items.flatMap fun item => [.blockEntry, Scanner.scalarKind item])
    (ends : next.kind ≠ .blockEntry) {fuel : Nat} (enough : (dash :: own).length ≤ fuel) :
    ∃ node, Tells (.list items) node ∧
      Node.node .blockValue (fuel + 1) ⟨dash :: own ++ next :: rest, anchors, handles⟩ =
        some (node, ⟨next :: rest, anchors, handles⟩) := by
  obtain _ | fuel := fuel
  · simp at enough
  obtain ⟨nodes, told, read⟩ := plainItems_kinds kinds ends enough rest anchors handles
  refine ⟨.sequence ⟨dash.start, none, none⟩ nodes, .list _ told, ?_⟩
  rw [List.cons_append] at read ⊢
  simp [Node.node, Node.properties, dashKind, read]

theorem node_nothing {first last : Lexeme} (firstKind : first.kind = .flowSequenceStart)
    (lastKind : last.kind = .flowSequenceEnd) (fuel : Nat) :
    Node.node place (fuel + 2) ⟨first :: last :: rest, anchors, handles⟩ =
      some (.sequence ⟨first.start, none, none⟩ [], ⟨rest, anchors, handles⟩) := by
  simp [Node.node, Node.properties, Node.flowItems, firstKind, lastKind]

theorem node_mapping {first : Lexeme} (firstKind : first.kind = .blockMappingStart) (inBlock : place ≠ .flow)
    (fuel : Nat) : Node.node place (fuel + 1) ⟨first :: rest, anchors, handles⟩ =
      (Node.blockEntries fuel ⟨rest, anchors, handles⟩).bind fun result =>
        some (.mapping ⟨first.start, none, none⟩ result.1, result.2) := by
  simp [Node.node, Node.properties, firstKind, inBlock]

theorem blockEntries_end (ends : lexeme.kind = .blockEnd) (fuel : Nat) :
    Node.blockEntries (fuel + 1) ⟨lexeme :: rest, anchors, handles⟩ =
      some ([], ⟨rest, anchors, handles⟩) := by
  simp [Node.blockEntries, ends]

/-- A key with its colon; what stands behind it is no end of an entry. -/
theorem blockEntries_key {key name colon first : Lexeme} (keyKind : key.kind = .key)
    (nameKind : name.kind = .scalar plain text) (colonKind : colon.kind = .value)
    (some : Node.isBlockStop first.kind = false) (fuel : Nat) :
    Node.blockEntries (fuel + 2) ⟨key :: name :: colon :: first :: rest, anchors, handles⟩ =
      (Node.node .blockValue (fuel + 1) ⟨first :: rest, anchors, handles⟩).bind fun value =>
        (Node.blockEntries (fuel + 1) value.2).bind fun result =>
          Option.some ((.scalar ⟨name.start, none, none⟩ plain text, value.1) :: result.1, result.2) := by
  have noStop : Node.isBlockStop name.kind = false := by rw [nameKind]; rfl
  rw [Node.blockEntries]
  simp [keyKind, noStop, colonKind, some, node_scalar nameKind]

end Parsing

section Trees

variable {anchors : List (String × Nat)} {handles : List (String × String)}

theorem ne_nil_of_kinds {block : Block} {own : List Lexeme} (kinds : own.map (·.kind) = block.kinds) :
    own ≠ [] := by
  rintro rfl
  cases block with
  | list items => cases items <;> simp [Block.kinds] at kinds
  | _ => simp [Block.kinds] at kinds

theorem not_isBlockStop_kinds (block : Block) :
    ∀ kind ∈ block.kinds.head?, Node.isBlockStop kind = false := by
  cases block with
  | list items => cases items <;> simp [Block.kinds, Node.isBlockStop]
  | _ => simp [Block.kinds, Node.isBlockStop, Scanner.scalarKind]

theorem next_of_entriesKinds {entries : List (String × Block)} {own : List Lexeme} {last : Lexeme}
    (kinds : own.map (·.kind) = entriesKinds entries) (ends : last.kind = .blockEnd) (rest : List Lexeme) :
    ∃ next after, own ++ last :: rest = next :: after ∧ next.kind ≠ .blockEntry := by
  obtain _ | ⟨⟨key, block⟩, entries⟩ := entries
  · obtain rfl := List.map_eq_nil_iff.mp kinds
    exact ⟨last, rest, rfl, by simp [ends]⟩
  · obtain ⟨mark, own, rfl, markKind, -⟩ := List.map_eq_cons_iff.mp kinds
    exact ⟨mark, _, rfl, by simp [markKind]⟩

mutual

/-- The lexemes of a block are read as its tree, up to the next key or the end of the mapping. -/
theorem node_kinds : ∀ (block : Block), block.Legible → ∀ {own : List Lexeme} {next : Lexeme} {fuel : Nat},
    own.map (·.kind) = block.kinds → next.kind ≠ .blockEntry → own.length < fuel →
    ∀ rest : List Lexeme, ∃ node, Tells block node ∧
      Node.node .blockValue fuel ⟨own ++ next :: rest, anchors, handles⟩ =
        some (node, ⟨next :: rest, anchors, handles⟩)
  | .word text, _, own, next, fuel, kinds, _, enough, rest => by
    obtain ⟨scalar, rfl, kind⟩ := List.map_eq_singleton_iff.mp kinds
    obtain ⟨fuel, rfl⟩ := Nat.exists_eq_add_of_le' enough
    exact ⟨_, .word ⟨_, rfl⟩, node_scalar kind _⟩
  | .text value, _, own, next, fuel, kinds, _, enough, rest => by
    obtain ⟨scalar, rfl, kind⟩ := List.map_eq_singleton_iff.mp kinds
    obtain ⟨fuel, rfl⟩ := Nat.exists_eq_add_of_le' enough
    exact ⟨_, .text ⟨_, rfl⟩, node_scalar kind _⟩
  | .list [], _, own, next, fuel, kinds, _, enough, rest => by
    obtain ⟨first, own, rfl, firstKind, kinds⟩ := List.map_eq_cons_iff.mp kinds
    obtain ⟨last, rfl, lastKind⟩ := List.map_eq_singleton_iff.mp kinds
    obtain ⟨fuel, rfl⟩ := Nat.exists_eq_add_of_le' enough
    exact ⟨_, .list first.start .nil, node_nothing firstKind lastKind _⟩
  | .list (item :: items), _, own, next, fuel, kinds, ends, enough, rest => by
    obtain ⟨dash, own, rfl, dashKind, -⟩ := List.map_eq_cons_iff.mp kinds
    obtain ⟨fuel, rfl⟩ := Nat.exists_eq_add_one_of_ne_zero (Nat.ne_of_gt (Nat.zero_lt_of_lt enough))
    exact node_items dashKind kinds ends (Nat.le_of_lt_succ enough)
  | .entries blocks, legible, own, next, fuel, kinds, _, enough, rest => by
    obtain ⟨first, own, rfl, firstKind, entriesEnd⟩ := List.map_eq_cons_iff.mp kinds
    obtain ⟨inner, last, rfl, innerKinds, lastKinds⟩ := List.map_eq_append_iff.mp entriesEnd
    obtain ⟨last, rfl, lastKind⟩ := List.map_eq_singleton_iff.mp lastKinds
    obtain ⟨fuel, rfl⟩ := Nat.exists_eq_add_one_of_ne_zero (Nat.ne_of_gt (Nat.zero_lt_of_lt enough))
    have enoughInside : inner.length < fuel := by
      simp only [List.length_cons, List.length_append, List.length_nil] at enough
      omega
    obtain ⟨nodes, told, read⟩ :=
      blockEntries_kinds blocks legible.2 innerKinds lastKind enoughInside (next :: rest)
    refine ⟨.mapping ⟨first.start, none, none⟩ nodes, .entries _ told, ?_⟩
    rw [List.cons_append, node_mapping firstKind (by decide), List.append_assoc, List.singleton_append, read]
    rfl

/-- The entries of a mapping up to its end. -/
theorem blockEntries_kinds : ∀ (entries : List (String × Block)), LegibleEntries entries →
    ∀ {own : List Lexeme} {last : Lexeme} {fuel : Nat}, own.map (·.kind) = entriesKinds entries →
    last.kind = .blockEnd → own.length < fuel → ∀ rest : List Lexeme, ∃ nodes, TellsEntries entries nodes ∧
      Node.blockEntries fuel ⟨own ++ last :: rest, anchors, handles⟩ = some (nodes, ⟨rest, anchors, handles⟩)
  | [], _, own, last, fuel, kinds, ends, enough, rest => by
    obtain rfl := List.map_eq_nil_iff.mp kinds
    obtain ⟨fuel, rfl⟩ := Nat.exists_eq_add_of_le' enough
    exact ⟨[], .nil, blockEntries_end ends fuel⟩
  | (key, block) :: more, legible, own, last, fuel, kinds, ends, enough, rest => by
    obtain ⟨-, legibleBlock, legibleMore⟩ := legible
    obtain ⟨mark, own, rfl, markKind, kinds⟩ := List.map_eq_cons_iff.mp kinds
    obtain ⟨name, own, rfl, nameKind, kinds⟩ := List.map_eq_cons_iff.mp kinds
    obtain ⟨colon, own, rfl, colonKind, kinds⟩ := List.map_eq_cons_iff.mp kinds
    obtain ⟨inner, later, rfl, innerKinds, laterKinds⟩ := List.map_eq_append_iff.mp kinds
    obtain ⟨first, innerRest, rfl⟩ := List.exists_cons_of_ne_nil (ne_nil_of_kinds innerKinds)
    have noStop : Node.isBlockStop first.kind = false := by
      refine not_isBlockStop_kinds block _ ?_
      rw [← innerKinds]
      rfl
    obtain ⟨next, after, same, notEntry⟩ := next_of_entriesKinds laterKinds ends rest
    simp only [List.length_cons, List.length_append] at enough
    obtain ⟨fuel, rfl⟩ := Nat.exists_eq_add_of_le' (show 2 ≤ fuel by omega)
    have enoughInner : (first :: innerRest).length < fuel + 1 := by
      rw [List.length_cons]
      omega
    have enoughLater : later.length < fuel + 1 := by omega
    obtain ⟨value, toldValue, readValue⟩ :=
      node_kinds block legibleBlock innerKinds notEntry enoughInner after
    obtain ⟨nodes, told, read⟩ := blockEntries_kinds more legibleMore laterKinds ends enoughLater rest
    refine ⟨_, .cons ⟨name.start, rfl⟩ toldValue told, ?_⟩
    rw [← same] at readValue
    simp only [List.cons_append, List.append_assoc] at readValue ⊢
    rw [blockEntries_key markKind nameKind colonKind noStop, readValue, Option.bind_some, read]
    rfl

end

end Trees

namespace Document

theorem directives_none {first : Lexeme} {rest : List Lexeme} {anchors : List (String × Nat)}
    (kind : first.kind = .blockMappingStart) (fuel : Nat) : directives false (fuel + 1) ⟨first :: rest, anchors, []⟩ =
      some ((), ⟨first :: rest, anchors, defaultHandles⟩) := by
  rw [directives]
  simp only [bind_apply, peek_cons, Option.bind_some, kind]
  rfl

theorem rest_end {ending : Lexeme} {anchors : List (String × Nat)} {handles : List (String × String)}
    (kind : ending.kind = .streamEnd) :
    rest ⟨[ending], anchors, handles⟩ = some ((), ⟨[ending], anchors, handles⟩) := by
  have stays : ([ending].dropWhile fun lexeme => decide (lexeme.kind = .documentEnd)) = [ending] := by
    simp [List.dropWhile, kind]
  simp only [rest, bind_apply, get_apply, Option.bind_some, stays, kind]
  rfl

theorem parse_mapping {first ending : Lexeme} {own : List Lexeme} {nodes : List (Node × Node)} {fuel : Nat}
    {anchors : List (String × Nat)} (firstKind : first.kind = .blockMappingStart)
    (endKind : ending.kind = .streamEnd) (read : Node.blockEntries fuel ⟨own, [], defaultHandles⟩ =
      some (nodes, ⟨[ending], anchors, defaultHandles⟩)) : parse (fuel + 1) ⟨first :: own, [], []⟩ =
      some (⟨some (.mapping ⟨first.start, none, none⟩ nodes)⟩, ⟨[ending], anchors, defaultHandles⟩) := by
  simp [parse, firstKind, directives_none firstKind, isDirective, node_mapping firstKind, read,
    rest_end endKind]

/-- A text is a document without directives or marks if its lexemes are one mapping. -/
theorem read?_of_block {text : String} {lexemes : List Lexeme} {body : List Kind}
    {told : List (Node × Node) → Prop} (scanned : Lexeme.scan? text = some lexemes)
    (kinds : lexemes.map (·.kind) = .blockMappingStart :: (body ++ [.blockEnd, .streamEnd]))
    (reads : ∀ (own : List Lexeme) (last ending : Lexeme), own.map (·.kind) = body → last.kind = .blockEnd →
      ∃ nodes anchors, told nodes ∧ Node.blockEntries (4 * own.length + 15)
        ⟨own ++ [last, ending], [], defaultHandles⟩ = some (nodes, ⟨[ending], anchors, defaultHandles⟩)) :
    ∃ mark nodes, told nodes ∧ read? text = some ⟨some (.mapping ⟨mark, none, none⟩ nodes)⟩ := by
  obtain ⟨first, own, rfl, firstKind, entriesEnd⟩ := List.map_eq_cons_iff.mp kinds
  obtain ⟨inner, endings, rfl, innerKinds, endKinds⟩ := List.map_eq_append_iff.mp entriesEnd
  obtain ⟨last, endings, rfl, lastKind, endKinds⟩ := List.map_eq_cons_iff.mp endKinds
  obtain ⟨ending, rfl, endKind⟩ := List.map_eq_singleton_iff.mp endKinds
  obtain ⟨nodes, anchors, isTold, read⟩ := reads inner last ending innerKinds lastKind
  have fuel : 4 * (first :: (inner ++ [last, ending])).length + 4 = (4 * inner.length + 15) + 1 := by
    simp only [List.length_cons, List.length_append, List.length_nil]
    omega
  refine ⟨first.start, nodes, isTold, ?_⟩
  rw [read?, scanned, Option.bind_eq_bind, Option.bind_some, StateT.run', fuel, parse_mapping firstKind endKind read]
  rfl

/-- A printed mapping is a document of its own. -/
theorem read?_print {entries : List (String × Block)} (legible : LegibleEntries entries)
    (nonempty : entries ≠ []) : ∃ mark nodes, TellsEntries entries nodes ∧
      read? (print entries) = some ⟨some (.mapping ⟨mark, none, none⟩ nodes)⟩ := by
  obtain ⟨lexemes, scanned, kinds⟩ := scan?_print legible nonempty
  refine read?_of_block scanned kinds fun own last ending same ends => ?_
  have enough : own.length < 4 * own.length + 15 := by omega
  obtain ⟨nodes, told, read⟩ := blockEntries_kinds entries legible same ends enough [ending]
  exact ⟨nodes, [], told, read⟩

end Document

end Colorization.Yaml
