import Colorization.Proofs.Json.Ordered
import Colorization.Proofs.Token.RoundTrip
import Mathlib.Data.List.Forall2

/-! Which documents are captures. A record gives each field once, under either of its names,
or it is an array of the three values; what else an object has does not matter. -/
namespace Colorization

namespace Field

theorem ofKey?_eq_some_iff (key : String) (field : Field) :
    ofKey? key = some field ↔ key = field.name ∨ key = field.shortName := by
  constructor
  · intro found
    simpa using List.find?_some found
  · rintro (rfl | rfl) <;> cases field <;> rfl

/-- The members of an object that give a field, under either of its names. -/
def given (field : Field) (members : List (String × Json)) : List (String × Json) :=
  members.filter fun member => member.1 = field.name ∨ member.1 = field.shortName

variable {field : Field} {member : String × Json}

theorem given_cons_of_eq (key : ofKey? member.1 = some field) (rest : List (String × Json)) :
    field.given (member :: rest) = member :: field.given rest := by
  have names := (ofKey?_eq_some_iff _ _).mp key
  simp [given, names]

theorem given_cons_of_ne (key : ofKey? member.1 ≠ some field) (rest : List (String × Json)) :
    field.given (member :: rest) = field.given rest := by
  have names := mt (ofKey?_eq_some_iff _ _).mpr key
  simp only [given, List.filter_cons, decide_eq_true_eq, if_neg names]

theorem mem_of_given_eq (only : field.given members = [member]) : member ∈ members := by
  have inside : member ∈ field.given members := by
    rw [only]
    exact List.mem_singleton_self member
  exact (List.mem_filter.mp inside).1

end Field

/-- An object with nothing but texts, as a map. -/
inductive Json.Colors : Json → ThemeColors → Prop where
  | object : (∀ theme value, (theme, value) ∈ members ↔
      ∃ color, value = .text color ∧ colors.get? theme = some color) →
      Colors (.object members) colors

/-- The value is a record of the token. -/
inductive Json.Record : Json → Token → Prop where
  | named : Field.content.given members = [(contentKey, .text content)] →
      Field.scope.given members = [(scopeKey, .text scope)] →
      Field.themeColors.given members = [(colorsKey, value)] → Colors value colors →
      Record (.object members) ⟨content, scope, colors⟩
  | listed : Colors value colors →
      Record (.array [.text content, .text scope, value]) ⟨content, scope, colors⟩

namespace ThemeColors

theorem mem_members_iff (colors : ThemeColors) (theme : String) (value : Json) :
    (theme, value) ∈ colors.entries.map (fun entry => (entry.1, Json.text entry.2)) ↔
      ∃ color, value = .text color ∧ colors.get? theme = some color := by
  simp only [List.mem_map, Prod.mk.injEq]
  constructor
  · rintro ⟨entry, member, rfl, rfl⟩
    exact ⟨entry.2, rfl, Dict.get?_eq_some_iff.mpr member⟩
  · rintro ⟨color, rfl, found⟩
    exact ⟨(theme, color), Dict.get?_eq_some_iff.mp found, rfl, rfl⟩

/-- The members of an object of texts stand in the order of their keys, as those of a map do. -/
theorem colors_iff {value : Json} (ordered : value.Ordered) (colors : ThemeColors) :
    value.Colors colors ↔ value = colors.toJson := by
  constructor
  · rintro ⟨same⟩
    cases ordered with
    | object sorted inner =>
      have texts : Entries.Sorted (colors.entries.map fun entry => (entry.1, Json.text entry.2)) :=
        List.pairwise_map.mpr colors.sorted
      congr 1
      apply Entries.eq_of_find?_eq sorted texts
      intro theme
      apply Option.ext
      intro value
      rw [Entries.find?_eq_some_iff sorted, Entries.find?_eq_some_iff texts, same, mem_members_iff]
  · rintro rfl
    exact .object fun theme value => colors.mem_members_iff theme value

end ThemeColors

/-- The order of the members, which of its names a field has and what else there is make no
difference. -/
theorem Json.Record.of_given {members others : List (String × Json)}
    (record : Record (.object members) token)
    (same : ∀ field : Field,
      ((field.given members).map (·.2)).Perm ((field.given others).map (·.2))) :
    Record (.object others) token := by
  have only : ∀ (field : Field) key value, field.given members = [(key, value)] →
      ∃ otherKey, field.given others = [(otherKey, value)] := by
    intro field key value given
    have values := same field
    rw [given, List.map_singleton, List.singleton_perm, eq_comm,
      List.map_eq_singleton_iff] at values
    obtain ⟨⟨otherKey, _⟩, there, rfl⟩ := values
    exact ⟨otherKey, there⟩
  cases record with
  | named content scope colors isColors =>
    obtain ⟨_, content⟩ := only _ _ _ content
    obtain ⟨_, scope⟩ := only _ _ _ scope
    obtain ⟨_, colors⟩ := only _ _ _ colors
    exact .named content scope colors isColors

namespace Token

theorem readText_eq_ok_iff (value : Json) (text : String) :
    readText value = .ok text ↔ value = .text text := by
  cases value <;> simp [readText]

/-- The members of an object, all of them texts. -/
theorem mapM_readText_eq_ok_iff (members : List (String × Json))
    (pairs : List (String × String)) :
    (members.mapM fun member => do
      let color ← readText member.2
      return (member.1, color)) = (.ok pairs : Except RecordFault _) ↔
      members = pairs.map fun pair => (pair.1, .text pair.2) := by
  induction members generalizing pairs with
  | nil => cases pairs <;> simp [pure, Except.pure]
  | cons member rest ih =>
    rw [List.mapM_cons]
    simp only [bind_eq_ok_iff, readText_eq_ok_iff, ih]
    simp only [pure, Except.pure, Except.ok.injEq]
    constructor
    · rintro ⟨_, ⟨color, value, rfl⟩, others, same, rfl⟩
      simp [← value, same]
    · intro same
      cases pairs with
      | nil => cases same
      | cons pair others =>
        rw [List.map_cons, List.cons.injEq] at same
        obtain ⟨rfl, same⟩ := same
        exact ⟨pair, ⟨pair.2, rfl, rfl⟩, others, same, rfl⟩

theorem readColors_eq_ok_iff {value : Json} (ordered : value.Ordered) (colors : ThemeColors) :
    readColors value = .ok colors ↔ value.Colors colors := by
  rw [ThemeColors.colors_iff ordered]
  constructor
  · intro read
    cases ordered with
    | object sorted inner =>
      simp only [readColors, bind_eq_ok_iff, mapM_readText_eq_ok_iff] at read
      obtain ⟨pairs, rfl, made⟩ := read
      cases made
      have sortedPairs : Entries.Sorted pairs := by
        rw [Entries.Sorted, List.pairwise_map] at sorted
        exact sorted
      have entries := Entries.ofList_of_sorted sortedPairs
      simp only [ThemeColors.toJson, Dict.ofList, entries]
    | null => cases read
    | bool => cases read
    | number => cases read
    | text => cases read
    | array => cases read
  · rintro rfl
    exact readColors_toJson colors

/-- A field before and after some of the members that give it. -/
def Filled (read : Json → Except RecordFault α) (given : List (String × Json))
    (before after : Option α) : Prop :=
  given = [] ∧ after = before ∨
    before = none ∧
      ∃ member value, given = [member] ∧ read member.2 = .ok value ∧ after = some value

theorem filled_nil_iff (read : Json → Except RecordFault α) (before after : Option α) :
    Filled read [] before after ↔ before = after := by
  constructor
  · rintro (⟨-, rfl⟩ | ⟨-, _, _, none, -⟩)
    · rfl
    · cases none
  · rintro rfl
    exact .inl ⟨rfl, rfl⟩

theorem filled_cons_iff (read : Json → Except RecordFault α) (member : String × Json)
    (rest : List (String × Json)) (before after : Option α) :
    Filled read (member :: rest) before after ↔
      before = none ∧
        ∃ value, read member.2 = .ok value ∧ Filled read rest (some value) after := by
  constructor
  · rintro (⟨none, -⟩ | ⟨rfl, _, value, only, taken, rfl⟩)
    · cases none
    · cases only
      exact ⟨rfl, value, taken, .inl ⟨rfl, rfl⟩⟩
  · rintro ⟨rfl, value, taken, ⟨rfl, rfl⟩ | ⟨some, -⟩⟩
    · exact .inr ⟨rfl, member, value, rfl, taken, rfl⟩
    · cases some

namespace Draft

variable {draft next : Draft} {member : String × Json}

theorem add_none (key : Field.ofKey? member.1 = none) : draft.add member = .ok draft := by
  simp only [add, key]

theorem add_content_iff (key : Field.ofKey? member.1 = some .content) :
    draft.add member = .ok next ↔ draft.content = none ∧
      ∃ value, readText member.2 = .ok value ∧ { draft with content := some value } = next := by
  cases given : draft.content <;> simp [add, key, has, given, bind_eq_ok_iff, pure, Except.pure]

theorem add_scope_iff (key : Field.ofKey? member.1 = some .scope) :
    draft.add member = .ok next ↔ draft.scope = none ∧
      ∃ value, readText member.2 = .ok value ∧ { draft with scope := some value } = next := by
  cases given : draft.scope <;> simp [add, key, has, given, bind_eq_ok_iff, pure, Except.pure]

theorem add_themeColors_iff (key : Field.ofKey? member.1 = some .themeColors) :
    draft.add member = .ok next ↔ draft.themeColors = none ∧
      ∃ value, readColors member.2 = .ok value ∧
        { draft with themeColors := some value } = next := by
  cases given : draft.themeColors <;>
    simp [add, key, has, given, bind_eq_ok_iff, pure, Except.pure]

/-- Each of the fields is filled by the members that give it. The induction is on the
members; one step puts one member into one field. -/
theorem foldlM_add_eq_ok_iff (members : List (String × Json)) (before after : Draft) :
    members.foldlM add before = .ok after ↔
      Filled readText (Field.content.given members) before.content after.content ∧
      Filled readText (Field.scope.given members) before.scope after.scope ∧
      Filled readColors (Field.themeColors.given members) before.themeColors after.themeColors := by
  induction members generalizing before with
  | nil =>
    cases before
    cases after
    simp [Field.given, filled_nil_iff, pure, Except.pure]
  | cons member rest ih =>
    rw [List.foldlM_cons, bind_eq_ok_iff]
    simp only [ih]
    cases key : Field.ofKey? member.1 with
    | none =>
      have others : ∀ field : Field, field.given (member :: rest) = field.given rest :=
        fun field => Field.given_cons_of_ne (by simp [key]) rest
      simp [add_none key, others]
    | some field =>
      have own := Field.given_cons_of_eq key rest
      have others : ∀ other ≠ field, other.given (member :: rest) = other.given rest :=
        fun other differs => Field.given_cons_of_ne (by simp [key, differs.symm]) rest
      cases field with
      | content =>
        rw [own, others .scope nofun, others .themeColors nofun, filled_cons_iff]
        simp only [add_content_iff key]
        constructor
        · rintro ⟨_, ⟨free, value, taken, rfl⟩, filled, scope, colors⟩
          exact ⟨⟨free, value, taken, filled⟩, scope, colors⟩
        · rintro ⟨⟨free, value, taken, filled⟩, scope, colors⟩
          exact ⟨_, ⟨free, value, taken, rfl⟩, filled, scope, colors⟩
      | scope =>
        rw [own, others .content nofun, others .themeColors nofun, filled_cons_iff]
        simp only [add_scope_iff key]
        constructor
        · rintro ⟨_, ⟨free, value, taken, rfl⟩, content, filled, colors⟩
          exact ⟨content, ⟨free, value, taken, filled⟩, colors⟩
        · rintro ⟨content, ⟨free, value, taken, filled⟩, colors⟩
          exact ⟨_, ⟨free, value, taken, rfl⟩, content, filled, colors⟩
      | themeColors =>
        rw [own, others .content nofun, others .scope nofun, filled_cons_iff]
        simp only [add_themeColors_iff key]
        constructor
        · rintro ⟨_, ⟨free, value, taken, rfl⟩, content, scope, filled⟩
          exact ⟨content, scope, free, value, taken, filled⟩
        · rintro ⟨content, scope, free, value, taken, filled⟩
          exact ⟨_, ⟨free, value, taken, rfl⟩, content, scope, filled⟩

theorem finish_eq_ok_iff (draft : Draft) (token : Token) :
    draft.finish = .ok token ↔
      draft = ⟨some token.content, some token.scope, some token.themeColors⟩ := by
  obtain ⟨content, scope, colors⟩ := draft
  cases content <;> cases scope <;> cases colors <;> cases token <;> simp [finish]

end Draft

theorem filled_some_iff (read : Json → Except RecordFault α) (given : List (String × Json))
    (value : α) :
    Filled read given none (some value) ↔
      ∃ key found, given = [(key, found)] ∧ read found = .ok value := by
  simp [Filled]

theorem ofJson_object_iff {members : List (String × Json)}
    (ordered : (Json.object members).Ordered) (token : Token) :
    ofJson (.object members) = .ok token ↔ Json.Record (.object members) token := by
  cases ordered with
  | object sorted inner =>
    simp only [ofJson, bind_eq_ok_iff, Draft.finish_eq_ok_iff]
    constructor
    · rintro ⟨_, folded, rfl⟩
      obtain ⟨content, scope, colors⟩ := (Draft.foldlM_add_eq_ok_iff ..).mp folded
      obtain ⟨contentKey, _, content, taken⟩ := (filled_some_iff ..).mp content
      obtain ⟨scopeKey, _, scope, taken'⟩ := (filled_some_iff ..).mp scope
      obtain ⟨colorsKey, found, colors, taken''⟩ := (filled_some_iff ..).mp colors
      cases (readText_eq_ok_iff ..).mp taken
      cases (readText_eq_ok_iff ..).mp taken'
      have isOrdered := inner _ (Field.mem_of_given_eq colors)
      exact .named content scope colors ((readColors_eq_ok_iff isOrdered _).mp taken'')
    · intro record
      cases record with
      | @named _ contentKey content scopeKey scope colorsKey found colors contentGiven scopeGiven
          colorsGiven isColors =>
        have isOrdered := inner _ (Field.mem_of_given_eq colorsGiven)
        have taken := (readColors_eq_ok_iff isOrdered colors).mpr isColors
        refine ⟨_, (Draft.foldlM_add_eq_ok_iff ..).mpr ⟨?_, ?_, ?_⟩, rfl⟩
        · exact (filled_some_iff ..).mpr ⟨contentKey, _, contentGiven, rfl⟩
        · exact (filled_some_iff ..).mpr ⟨scopeKey, _, scopeGiven, rfl⟩
        · exact (filled_some_iff ..).mpr ⟨colorsKey, found, colorsGiven, taken⟩

theorem ofJson_array_iff {items : List Json} (ordered : (Json.array items).Ordered)
    (token : Token) : ofJson (.array items) = .ok token ↔ Json.Record (.array items) token := by
  cases ordered with
  | array inner =>
    constructor
    · intro read
      match items with
      | [] => cases read
      | [first] => simp [ofJson, bind_eq_ok_iff] at read
      | [first, second] => simp [ofJson, bind_eq_ok_iff] at read
      | first :: second :: third :: rest =>
        simp only [ofJson, List.getElem?_cons_zero, List.getElem?_cons_succ, bind_eq_ok_iff,
          readText_eq_ok_iff] at read
        obtain ⟨content, rfl, scope, rfl, colors, taken, whole⟩ := read
        split at whole
        next short =>
          cases whole
          have none : rest = [] := by
            simp only [List.length_cons] at short
            exact List.eq_nil_of_length_eq_zero (by omega)
          subst none
          exact .listed ((readColors_eq_ok_iff (inner third (by simp)) _).mp taken)
        · cases whole
    · intro record
      cases record with
      | @listed value colors content scope isColors =>
        have isOrdered := inner value (by simp)
        have taken := (readColors_eq_ok_iff isOrdered colors).mpr isColors
        simp only [ofJson, List.getElem?_cons_zero, List.getElem?_cons_succ, readText, taken]
        rfl

/-- A value whose objects have their keys once is read exactly if it is a record. -/
theorem ofJson_eq_ok_iff {value : Json} (ordered : value.Ordered) (token : Token) :
    ofJson value = .ok token ↔ value.Record token := by
  cases value with
  | object members => exact ofJson_object_iff ordered token
  | array items => exact ofJson_array_iff ordered token
  | null => exact ⟨nofun, nofun⟩
  | bool => exact ⟨nofun, nofun⟩
  | number => exact ⟨nofun, nofun⟩
  | text => exact ⟨nofun, nofun⟩

end Token

namespace Capture

theorem ofItems_eq_ok_iff (start : Nat) {items : List Json}
    (ordered : ∀ item ∈ items, item.Ordered) (capture : Capture) :
    ofItems start items = .ok capture ↔ List.Forall₂ Json.Record items capture := by
  induction items generalizing start capture with
  | nil => cases capture <;> simp [ofItems]
  | cons item rest ih =>
    have first := Token.ofJson_eq_ok_iff (ordered item List.mem_cons_self)
    have others := fun capture =>
      ih (start + 1) (fun other member => ordered other (List.mem_cons_of_mem item member)) capture
    cases read : Token.ofJson item with
    | error fault =>
      simp only [ofItems, read]
      constructor
      · intro same
        cases same
      · intro all
        cases all with
        | cons record records =>
          rw [(first _).mpr record] at read
          cases read
    | ok token =>
      simp only [ofItems, read, bind_eq_ok_iff, others]
      constructor
      · rintro ⟨tokens, records, same⟩
        cases same
        exact .cons ((first token).mp read) records
      · intro all
        cases all with
        | cons record records =>
          cases ((first _).mpr record).symm.trans read
          exact ⟨_, records, rfl⟩

/-- The fault is that of the first item that is no record. -/
theorem of_ofItems_error {start : Nat} {items : List Json} {fault : DocumentFault}
    (failed : ofItems start items = .error fault) :
    ∃ i item reason, fault = .record (start + i) reason ∧ items[i]? = some item ∧
      Token.ofJson item = .error reason ∧
      ∀ earlier ∈ items.take i, ∃ token, Token.ofJson earlier = .ok token := by
  induction items generalizing start with
  | nil => cases failed
  | cons item rest ih =>
    simp only [ofItems] at failed
    cases read : Token.ofJson item with
    | error reason =>
      rw [read] at failed
      cases failed
      exact ⟨0, item, reason, rfl, rfl, read, by simp⟩
    | ok token =>
      simp only [read] at failed
      cases others : ofItems (start + 1) rest with
      | ok tokens =>
        rw [others] at failed
        cases failed
      | error later =>
        rw [others] at failed
        cases failed
        obtain ⟨i, bad, reason, named, there, refused, before⟩ := ih others
        rw [Nat.add_assoc, Nat.add_comm 1 i] at named
        refine ⟨i + 1, bad, reason, named, there, refused, ?_⟩
        rw [List.take_succ_cons]
        intro earlier member
        rcases List.mem_cons.mp member with rfl | later
        · exact ⟨token, read⟩
        · exact before earlier later

theorem deserialize_of_read {document : String} (parsed : Json.read document = .ok value) :
    deserialize document = ofJson value := by
  simp only [deserialize, parsed]

theorem deserialize_eq_ok_iff_records {document : String} {value : Json}
    (parsed : Json.read document = .ok value) (capture : Capture) :
    deserialize document = .ok capture ↔
      ∃ items, value = .array items ∧ List.Forall₂ Json.Record items capture := by
  rw [deserialize_of_read parsed]
  cases Json.read_ordered parsed with
  | array inner => simp [ofJson, ofItems_eq_ok_iff 0 inner]
  | object => exact ⟨nofun, nofun⟩
  | null => exact ⟨nofun, nofun⟩
  | bool => exact ⟨nofun, nofun⟩
  | number => exact ⟨nofun, nofun⟩
  | text => exact ⟨nofun, nofun⟩

/-- What is reported about an array is its first item that is no record. -/
theorem message_of_deserialize_error {document : String} {items : List Json}
    (parsed : Json.read document = .ok (.array items))
    (failed : deserialize document = .error fault) :
    ∃ i item reason, items[i]? = some item ∧ (∀ token, ¬item.Record token) ∧
      (∀ earlier ∈ items.take i, ∃ token, earlier.Record token) ∧
      Token.ofJson item = .error reason ∧ fault.message = s!"token {i}: {reason.message}" := by
  cases Json.read_ordered parsed with
  | array inner =>
    rw [deserialize_of_read parsed] at failed
    obtain ⟨i, item, reason, rfl, there, refused, before⟩ := of_ofItems_error failed
    refine ⟨i, item, reason, there, ?_, ?_, refused, by rw [Nat.zero_add]; rfl⟩
    · intro token record
      have ordered := inner item (List.mem_of_getElem? there)
      rw [(Token.ofJson_eq_ok_iff ordered token).mpr record] at refused
      cases refused
    · intro earlier member
      obtain ⟨token, read⟩ := before earlier member
      have ordered := inner earlier (List.mem_of_mem_take member)
      exact ⟨token, (Token.ofJson_eq_ok_iff ordered token).mp read⟩

/-- A document is read exactly if it is an array of records, as their tokens; otherwise the
fault names the first item that is no record. A record is what its fields are given. -/
theorem deserialize_records {document : String} {value : Json}
    (parsed : Json.read document = .ok value) :
    (∀ capture, deserialize document = .ok capture ↔
      ∃ items, value = .array items ∧ List.Forall₂ Json.Record items capture) ∧
    ((¬∃ items capture, value = .array items ∧ List.Forall₂ Json.Record items capture) →
      ∃ fault, deserialize document = .error fault ∧
        ∀ items, value = .array items → ∃ i item reason, items[i]? = some item ∧
          (∀ token, ¬item.Record token) ∧
          (∀ earlier ∈ items.take i, ∃ token, earlier.Record token) ∧
          Token.ofJson item = .error reason ∧
          fault.message = s!"token {i}: {reason.message}") ∧
    ∀ members others token,
      (∀ field : Field,
        ((field.given members).map (·.2)).Perm ((field.given others).map (·.2))) →
      (Json.Record (.object members) token ↔ Json.Record (.object others) token) := by
  have taken := deserialize_eq_ok_iff_records parsed
  refine ⟨taken, ?_, ?_⟩
  · intro none
    cases read : deserialize document with
    | ok capture =>
      obtain ⟨items, array, records⟩ := (taken capture).mp read
      exact absurd ⟨items, capture, array, records⟩ none
    | error fault =>
      refine ⟨fault, rfl, ?_⟩
      rintro items rfl
      exact message_of_deserialize_error parsed read
  · intro members others token same
    constructor
    · intro record
      exact record.of_given same
    · intro record
      exact record.of_given fun field => (same field).symm

/-- A record with short names and a member that means nothing. -/
theorem deserialize_records_short :
    deserialize "[\x7b\"c\":\"x\",\"n\":null,\"r\":\x7b\x7d,\"t\":\"s\"\x7d]" =
      .ok [⟨"x", "s", Dict.empty⟩] := by
  have legible : Json.Legible Json.depthLimit (.array [.object
      [("c", .text "x"), ("n", .null), ("r", .object []), ("t", .text "s")]]) := by
    apply Json.Legible.array
    simp only [List.mem_singleton, forall_eq]
    apply Json.Legible.object
    · simp only [Entries.Sorted]
      decide
    · simp only [List.mem_cons, List.not_mem_nil, or_false]
      rintro _ (rfl | rfl | rfl | rfl)
      · exact .text
      · exact .null
      · exact .object .nil (List.forall_mem_nil _)
      · exact .text
  have parsed := Json.read_write Json.Layout.compact_blank legible
  have text : Json.write .compact (.array [.object
      [("c", .text "x"), ("n", .null), ("r", .object []), ("t", .text "s")]]) =
      "[\x7b\"c\":\"x\",\"n\":null,\"r\":\x7b\x7d,\"t\":\"s\"\x7d]" := by decide +kernel
  rw [text] at parsed
  apply ((deserialize_records parsed).1 _).mpr
  refine ⟨_, rfl, .cons (.named rfl rfl rfl (.object ?_)) .nil⟩
  simp [Dict.empty, Dict.get?, Entries.find?]

end Capture

end Colorization
