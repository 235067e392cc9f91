import Colorization.Proofs.Yaml.Alone
import Colorization.Proofs.Yaml.Tree

/-! The trees of lexemes, and of lexemes of the same kinds in a longer text. A node is read in the same way
wherever it stands; only the names of anchors may be known from before, and a further key may follow where the
mapping of the text itself has ended. -/
namespace Colorization.Yaml

namespace Kind

variable {kind : Kind} {kinds more : List Kind}

theorem balanced_nil : Balanced [] :=
  ⟨nofun, fun before inside => by simp [List.prefix_nil.mp inside], rfl, fun n => Nat.le_refl n⟩

theorem prefix_append_cases {before : List Kind} (inside : before <+: kinds ++ more) :
    before <+: kinds ∨ ∃ rest, before = kinds ++ rest ∧ rest <+: more := by
  obtain ⟨after, same⟩ := inside
  obtain ⟨rest, within, -⟩ | ⟨rest, beyond, within⟩ := List.append_eq_append_iff.mp same
  · exact .inl ⟨rest, within.symm⟩
  · exact .inr ⟨rest, beyond, ⟨after, within.symm⟩⟩

theorem Balanced.append (first : Balanced kinds) (second : Balanced more) : Balanced (kinds ++ more) where
  inner := List.forall_mem_append.mpr ⟨first.inner, second.inner⟩
  rises before inside := by
    rcases prefix_append_cases inside with within | ⟨rest, rfl, within⟩
    · exact first.rises before within
    · have rises := second.rises rest within
      rw [depth_append, first.depth]
      omega
  depth := by rw [depth_append, first.depth, second.depth]; rfl
  level n := by
    rw [List.foldl_append]
    exact Nat.le_trans (foldl_level_mono more (first.level n)) (second.level n)

/-- A lexeme within a level of blocks and brackets. -/
theorem Balanced.cons (inner : kind.isStream = false) (within : kind.bounds = false) (later : Balanced kinds) :
    Balanced (kind :: kinds) := by
  have alone : Balanced [kind] := by
    refine ⟨by simpa using inner, ?_, ?_, fun n => by simp [level_of_bounds within]⟩
    · intro before inside
      rcases List.prefix_cons_iff.mp inside with rfl | ⟨rest, rfl, nothing⟩
      · exact Int.le_refl _
      · rw [List.prefix_nil.mp nothing, depth_cons, rise_of_bounds within]
        exact Int.le_refl _
    · rw [depth_cons, rise_of_bounds within]
      rfl
  exact alone.append later

/-- A level of blocks or brackets with what is in it. -/
theorem Balanced.wrap {close : Kind} (balanced : Balanced kinds)
    (around : kind.isStream = false ∧ close.isStream = false) (rises : kind.rise + close.rise = 0)
    (deeper : 0 ≤ kind.rise) (levels : ∀ n, close.level (kind.level n) ≤ n) :
    Balanced (kind :: (kinds ++ [close])) where
  inner := by
    simp only [List.mem_cons, List.mem_append, List.not_mem_nil, or_false]
    rintro _ (rfl | inside | rfl)
    · exact around.1
    · exact balanced.inner _ inside
    · exact around.2
  rises before inside := by
    rcases List.prefix_cons_iff.mp inside with rfl | ⟨rest, rfl, within⟩
    · exact Int.le_refl _
    rw [depth_cons]
    rcases prefix_append_cases within with within | ⟨last, rfl, ends⟩
    · have above := balanced.rises rest within
      omega
    · rw [depth_append, balanced.depth]
      rcases List.prefix_cons_iff.mp ends with rfl | ⟨_, rfl, nothing⟩
      · simp only [depth_nil]
        omega
      · rw [List.prefix_nil.mp nothing, depth_cons, depth_nil]
        omega
  depth := by
    simp only [depth_cons, depth_append, balanced.depth, depth_nil]
    omega
  level n := by
    rw [List.foldl_cons, List.foldl_append, List.foldl_cons, List.foldl_nil]
    exact Nat.le_trans (level_mono close (balanced.level _)) (levels n)

/-- What is in a level, and the lexeme that closes it. -/
def Closes (close : Kind) (kinds : List Kind) : Prop := ∃ inner, kinds = inner ++ [close] ∧ Balanced inner

theorem Closes.ne_nil {close : Kind} (closes : Closes close kinds) : kinds ≠ [] := by
  obtain ⟨inner, rfl, -⟩ := closes
  exact List.append_ne_nil_of_right_ne_nil _ (List.cons_ne_nil _ _)

theorem not_closes_single {close : Kind} (other : kind ≠ close) : ¬Closes close [kind] := by
  rintro ⟨inner, same, -⟩
  have last := congrArg List.getLast? same
  rw [List.getLast?_concat] at last
  exact other (Option.some.inj last)

theorem Balanced.closes {close : Kind} (balanced : Balanced kinds) (later : Closes close more) :
    Closes close (kinds ++ more) := by
  obtain ⟨inner, rfl, within⟩ := later
  exact ⟨kinds ++ inner, (List.append_assoc _ _ _).symm, balanced.append within⟩

theorem Closes.cons {close : Kind} (inner : kind.isStream = false) (within : kind.bounds = false)
    (closes : Closes close kinds) : Closes close (kind :: kinds) :=
  (balanced_nil.cons inner within).closes closes

/-- A closing bracket too many is passed over. -/
theorem Closes.cons_closing {close : Kind} (closing : kind.closesFlow = true) (closes : Closes close kinds) :
    Closes close (kind :: kinds) := by
  have balanced : Balanced [kind] := by
    refine ⟨?_, ?_, ?_, ?_⟩
    · intro other member
      rw [List.mem_singleton.mp member]
      cases kind <;> first | rfl | cases closing
    · intro before inside
      rcases List.prefix_cons_iff.mp inside with rfl | ⟨rest, rfl, nothing⟩
      · exact Int.le_refl _
      · rw [List.prefix_nil.mp nothing, depth_cons, rise_of_closesFlow closing]
        exact Int.le_refl _
    · rw [depth_cons, rise_of_closesFlow closing]
      rfl
    · intro n
      simp [level_of_closesFlow closing]
  exact balanced.closes closes

end Kind

namespace Node

open Kind (Balanced Closes balanced_nil)

variable {α β γ δ : Type} {t t' : List Lexeme} {src src' : Source} {l l' : Lexeme} {S S₁ S₂ : List Kind → Prop}
  {fuel fuel' : Nat}

/-- The lexemes that follow begin with the end of a block, or with a further key in its place. -/
def Follow (t t' : List Lexeme) : Prop :=
  ∃ l after l' after', t = l :: after ∧ t' = l' :: after' ∧ l.kind = .blockEnd ∧
    (l'.kind = .blockEnd ∨ l'.kind = .key)

/-- The names of some anchors are known among others. -/
def Knows (known anchors : List (String × Nat)) : Prop :=
  ∀ name, (known.find? (·.1 = name)).isSome → (anchors.find? (·.1 = name)).isSome

/-- The same lexemes up to what follows, and the same names. -/
structure Parallel (t t' : List Lexeme) (src src' : Source) : Prop where
  lexemes : ∃ own own', src.lexemes = own ++ t ∧ src'.lexemes = own' ++ t' ∧ own'.map (·.kind) = own.map (·.kind)
  handles : src'.handles = src.handles
  anchors : Knows src.anchors src'.anchors

theorem Parallel.head (parallel : Parallel t t' src src') (follow : Follow t t') :
    ∃ l ls l' ls', src.lexemes = l :: ls ∧ src'.lexemes = l' :: ls' ∧
      (l'.kind = l.kind ∨ l.kind = .blockEnd ∧ l'.kind = .key) ∧
      (t.length ≤ ls.length → l'.kind = l.kind ∧ Parallel t t' ⟨ls, src.anchors, src.handles⟩ ⟨ls', src'.anchors, src'.handles⟩) := by
  obtain ⟨own, own', here, there, same⟩ := parallel.lexemes
  cases own with
  | nil =>
    obtain rfl : own' = [] := by simpa using same
    obtain ⟨l, after, l', after', rfl, rfl, isEnd, other⟩ := follow
    refine ⟨l, after, l', after', here, there, ?_, fun long => ?_⟩
    · rcases other with isEnd' | isKey
      · exact .inl (isEnd'.trans isEnd.symm)
      · exact .inr ⟨isEnd, isKey⟩
    · rw [List.length_cons] at long
      omega
  | cons l own =>
    obtain ⟨l', own', rfl⟩ : ∃ l' own'', own' = l' :: own'' := by
      cases own' with
      | nil => simp at same
      | cons l' own' => exact ⟨l', own', rfl⟩
    obtain ⟨first, later⟩ := List.cons.inj same
    refine ⟨l, own ++ t, l', own' ++ t', here, there, .inl first, fun _ => ⟨first, ⟨own, own', rfl, rfl, later⟩,
      parallel.handles, parallel.anchors⟩⟩

/-- What has been read of a source, and that the same is read elsewhere as far as `seen` tells it. -/
structure Reading (S : List Kind → Prop) (seen : α → γ) (p' : Parse α) (heads : Source → Prop) (src : Source)
    (value : α) (src₁ : Source) : Prop where
  handles : src₁.handles = src.handles
  own : ∃ own, src.lexemes = own ++ src₁.lexemes ∧ S (own.map (·.kind))
  elsewhere : ∀ t t' src', Follow t t' → heads src' → Parallel t t' src src' → t.length ≤ src₁.lexemes.length →
    ∃ value' src₁', p' src' = some (value', src₁') ∧ Parallel t t' src₁ src₁' ∧ seen value' = seen value

def Reads (S : List Kind → Prop) (seen : α → γ) (p p' : Parse α) : Prop :=
  ∀ src value src₁, p src = some (value, src₁) → Reading S seen p' (fun _ => True) src value src₁

/-- The first lexeme is known. -/
def ReadsAt (l l' : Lexeme) (S : List Kind → Prop) (seen : α → γ) (p p' : Parse α) : Prop :=
  ∀ src value src₁, src.lexemes.head? = some l → p src = some (value, src₁) →
    Reading S seen p' (·.lexemes.head? = some l') src value src₁

variable {seen : α → γ} {seen₂ : β → δ} {p p' : Parse α} {f f' : α → Parse β}

theorem Reads.at (reads : Reads S seen p p') : ReadsAt l l' S seen p p' := fun src value src₁ _ read =>
  { reads src value src₁ read with
    elsewhere := fun t t' src' follow _ => (reads src value src₁ read).elsewhere t t' src' follow trivial }

theorem Reads.weaken (reads : Reads S₁ seen p p') (weaker : ∀ kinds, S₁ kinds → S kinds) : Reads S seen p p' := by
  intro src value src₁ read
  obtain ⟨handles, ⟨own, here, shape⟩, elsewhere⟩ := reads src value src₁ read
  exact ⟨handles, ⟨own, here, weaker _ shape⟩, elsewhere⟩

theorem Reads.forget (reads : Reads S seen p p') : Reads S (fun _ => ()) p p' := by
  intro src value src₁ read
  obtain ⟨handles, own, elsewhere⟩ := reads src value src₁ read
  refine ⟨handles, own, fun t t' src' follow heads parallel long => ?_⟩
  obtain ⟨value', src₁', read', parallel', -⟩ := elsewhere t t' src' follow heads parallel long
  exact ⟨value', src₁', read', parallel', rfl⟩

theorem Reads.pure {value value' : α} (nothing : S []) (same : seen value' = seen value) :
    Reads S seen (pure value) (pure value') := by
  rintro src _ _ ⟨⟩
  exact ⟨rfl, ⟨[], rfl, nothing⟩, fun t t' src' _ _ parallel _ => ⟨value', src', rfl, parallel, same⟩⟩

theorem Reads.failure : Reads S seen failure p' := by
  rintro src _ _ ⟨⟩

theorem Reading.length_le {heads : Source → Prop} {value : α} {src₁ : Source}
    (reading : Reading S seen p' heads src value src₁) : src₁.lexemes.length ≤ src.lexemes.length := by
  obtain ⟨own, here, -⟩ := reading.own
  rw [here, List.length_append]
  exact Nat.le_add_left _ _

theorem Reads.bind (S₂ : List Kind → Prop) (first : Reads S₁ seen p p')
    (later : ∀ value value', seen value' = seen value → Reads S₂ seen₂ (f value) (f' value'))
    (closed : ∀ a b, S₁ a → S₂ b → S (a ++ b)) : Reads S seen₂ (p >>= f) (p' >>= f') := by
  intro src result src₂ read
  rw [bind_apply] at read
  obtain ⟨⟨value, src₁⟩, one, two⟩ := Option.bind_eq_some_iff.mp read
  have reading := first src value src₁ one
  have after := later value value rfl src₁ result src₂ two
  obtain ⟨own, here, shape⟩ := reading.own
  obtain ⟨own₁, here₁, shape₁⟩ := after.own
  refine ⟨after.handles.trans reading.handles, ⟨own ++ own₁, ?_, ?_⟩, fun t t' src' follow _ parallel long => ?_⟩
  · rw [here, here₁, List.append_assoc]
  · rw [List.map_append]
    exact closed _ _ shape shape₁
  · obtain ⟨value', src₁', one', parallel₁, same⟩ :=
      reading.elsewhere t t' src' follow trivial parallel (Nat.le_trans long after.length_le)
    obtain ⟨result', src₂', two', parallel₂, same₂⟩ :=
      (later value value' same src₁ result src₂ two).elsewhere t t' src₁' follow trivial parallel₁ long
    exact ⟨result', src₂', by rw [bind_apply, one', Option.bind_some, two'], parallel₂, same₂⟩

theorem Reads.bind_nothing (first : Reads (· = []) seen p p')
    (later : ∀ value value', seen value' = seen value → Reads S seen₂ (f value) (f' value')) :
    Reads S seen₂ (p >>= f) (p' >>= f') :=
  first.bind S later (by
    rintro _ b rfl shape
    exact shape)

theorem Reads.map {change change' : α → β} (reads : Reads S seen p p')
    (same : ∀ value value', seen value' = seen value → seen₂ (change' value') = seen₂ (change value)) :
    Reads S seen₂ (p >>= fun value => Pure.pure (change value)) (p' >>= fun value => Pure.pure (change' value)) :=
  reads.bind (· = []) (fun value value' alike => .pure rfl (same value value' alike)) (by
    rintro a _ shape rfl
    rwa [List.append_nil])

/-- The first lexeme decides. Something may follow that ends a block in one place only. -/
theorem Reads.peek {f f' : Lexeme → Parse α} (alike : ∀ l l', l'.kind = l.kind → ReadsAt l l' S seen (f l) (f' l'))
    (ended : ∀ l l', l.kind = .blockEnd → l'.kind = .key → ReadsAt l l' S seen (f l) (f' l')) :
    Reads S seen (peek >>= f) (peek >>= f') := by
  rintro ⟨_ | ⟨l, ls⟩, anchors, handles⟩ value src₁ read
  · cases read
  rw [bind_apply, peek_cons, Option.bind_some] at read
  have reading := alike l l rfl _ value src₁ rfl read
  refine ⟨reading.handles, reading.own, fun t t' src' follow _ parallel long => ?_⟩
  obtain ⟨l₀, ls₀, l', ls', here, there, heads, -⟩ := parallel.head follow
  obtain ⟨rfl, rfl⟩ := List.cons.inj here
  obtain ⟨lexemes', anchors', handles'⟩ := src'
  obtain rfl : lexemes' = l' :: ls' := there
  rw [bind_apply, peek_cons, Option.bind_some]
  rcases heads with same | ⟨isEnd, isKey⟩
  · exact (alike l l' same _ value src₁ rfl read).elsewhere t t' _ follow rfl parallel long
  · exact (ended l l' isEnd isKey _ value src₁ rfl read).elsewhere t t' _ follow rfl parallel long

/-- Where a lexeme is taken in any case, it is of the same kind. -/
theorem Reads.peek_taken {f f' : Lexeme → Parse α} (some : ¬S [])
    (alike : ∀ l l', l'.kind = l.kind → ReadsAt l l' S seen (f l) (f' l')) :
    Reads S seen (Node.peek >>= f) (Node.peek >>= f') := by
  rintro ⟨_ | ⟨l, ls⟩, anchors, handles⟩ value src₁ read
  · cases read
  rw [bind_apply, peek_cons, Option.bind_some] at read
  have reading := alike l l rfl _ value src₁ rfl read
  refine ⟨reading.handles, reading.own, fun t t' src' follow _ parallel long => ?_⟩
  obtain ⟨own, split, shape⟩ := reading.own
  have taken : own ≠ [] := by
    rintro rfl
    exact some shape
  obtain ⟨first, own, rfl⟩ := List.exists_cons_of_ne_nil taken
  obtain ⟨l₀, ls₀, l', ls', here, there, -, further⟩ := parallel.head follow
  obtain ⟨rfl, rfl⟩ := List.cons.inj here
  obtain ⟨lexemes', anchors', handles'⟩ := src'
  obtain rfl : lexemes' = l' :: ls' := there
  have shorter : ls.length = (own ++ src₁.lexemes).length := congrArg List.length (List.cons.inj split).2
  rw [List.length_append] at shorter
  rw [bind_apply, peek_cons, Option.bind_some]
  exact (alike l l' (further (by omega)).1 _ value src₁ rfl read).elsewhere t t' _ follow rfl parallel long

/-- A lexeme is taken. -/
theorem ReadsAt.skip {kind : Kind} {f f' : Unit → Parse α} (isKind : l.kind = kind)
    (later : Reads (fun kinds => S (kind :: kinds)) seen (f ()) (f' ())) :
    ReadsAt l l' S seen (Node.skip >>= f) (Node.skip >>= f') := by
  subst isKind
  rintro ⟨_ | ⟨first, ls⟩, anchors, handles⟩ value src₁ head read
  · cases head
  obtain rfl : first = l := Option.some.inj head
  rw [bind_apply, skip_cons, Option.bind_some] at read
  have reading := later _ value src₁ read
  obtain ⟨own, split, shape⟩ := reading.own
  refine ⟨reading.handles, ⟨first :: own, congrArg (first :: ·) split, shape⟩, fun t t' src' follow heads parallel long => ?_⟩
  obtain ⟨l₀, ls₀, l', ls', here, there, -, further⟩ := parallel.head follow
  obtain ⟨rfl, rfl⟩ := List.cons.inj here
  obtain ⟨lexemes', anchors', handles'⟩ := src'
  obtain rfl : lexemes' = l' :: ls' := there
  rw [bind_apply, skip_cons, Option.bind_some]
  exact reading.elsewhere t t' _ follow trivial (further (Nat.le_trans long reading.length_le)).2 long

theorem Reads.next {f f' : Lexeme → Parse α} (some : ¬S [])
    (later : ∀ l l', l'.kind = l.kind → Reads (fun kinds => S (l.kind :: kinds)) seen (f l) (f' l')) :
    Reads S seen (Node.next >>= f) (Node.next >>= f') := by
  have unfolded (f : Lexeme → Parse α) : Node.next >>= f = Node.peek >>= fun l => Node.skip >>= fun _ => f l := by
    simp [Node.next]
  rw [unfolded, unfolded]
  exact .peek_taken some fun l l' same => .skip rfl (later l l' same)

section Names

theorem declare_apply (name : String) (src : Source) : declare name src = some (src.anchors.length,
    { src with anchors := (name, src.anchors.length) :: src.anchors.filter (·.1 != name) }) := rfl

theorem find?_declared (anchors : List (String × Nat)) (name other : String) (number : Nat) :
    (((name, number) :: anchors.filter (·.1 != name)).find? (·.1 = other)).isSome ↔
      name = other ∨ (anchors.find? (·.1 = other)).isSome := by
  simp only [List.find?_isSome, List.mem_cons, List.mem_filter, decide_eq_true_eq, bne_iff_ne]
  constructor
  · rintro ⟨entry, rfl | ⟨member, -⟩, same⟩
    · exact .inl same
    · exact .inr ⟨entry, member, same⟩
  · rintro (same | ⟨entry, member, same⟩)
    · exact ⟨_, .inl rfl, same⟩
    · by_cases known : entry.1 = name
      · exact ⟨_, .inl rfl, known.symm.trans same⟩
      · exact ⟨entry, .inr ⟨member, known⟩, same⟩

theorem declare_reads (name : String) : Reads (· = []) (fun _ => ()) (declare name) (declare name) := by
  intro src value src₁ read
  rw [declare_apply] at read
  cases read
  refine ⟨rfl, ⟨[], rfl, rfl⟩, fun t t' src' _ _ parallel _ => ⟨_, _, declare_apply name src', ?_, rfl⟩⟩
  refine ⟨parallel.lexemes, parallel.handles, fun other => ?_⟩
  rw [find?_declared, find?_declared]
  exact Or.imp_right (parallel.anchors other)

theorem expandTag_reads (handle suffix : String) :
    Reads (· = []) (fun _ => ()) (expandTag handle suffix) (expandTag handle suffix) := by
  intro src value src₁ read
  have stays : src₁ = src ∧ ∀ src', src'.handles = src.handles → expandTag handle suffix src' = some (value, src') := by
    unfold expandTag at read ⊢
    by_cases local_ : handle.isEmpty = true
    · simp only [local_, if_true] at read ⊢
      cases read
      exact ⟨rfl, fun src' _ => rfl⟩
    · simp only [if_neg local_, bind_apply, get_apply, Option.bind_some] at read ⊢
      cases found : src.handles.find? (·.1 = handle) with
      | none =>
        rw [found] at read
        cases read
      | some entry =>
        rw [found] at read
        cases read
        exact ⟨rfl, fun src' same => by rw [same, found]; rfl⟩
  obtain ⟨rfl, same⟩ := stays
  exact ⟨rfl, ⟨[], rfl, rfl⟩, fun t t' src' _ _ parallel _ => ⟨value, src', same src' parallel.handles, parallel, rfl⟩⟩

/-- The text of a scalar. -/
def text? : Node → Option (Bool × String)
  | .scalar _ plain text => some (plain, text)
  | _ => none

/-- An alias needs no more than that its name is known. -/
theorem lookUp_reads (name : String) (mark mark' : Mark) : Reads (· = []) text?
    (do
      match (← get).anchors.find? (·.1 = name) with
      | some (_, number) => return .alias mark number
      | none => failure)
    (do
      match (← get).anchors.find? (·.1 = name) with
      | some (_, number) => return .alias mark' number
      | none => failure) := by
  intro src value src₁ read
  rw [bind_apply, get_apply, Option.bind_some] at read
  cases found : src.anchors.find? (·.1 = name) with
  | none =>
    simp only [found] at read
    cases read
  | some entry =>
    simp only [found] at read
    cases read
    refine ⟨rfl, ⟨[], rfl, rfl⟩, fun t t' src' _ _ parallel _ => ?_⟩
    obtain ⟨⟨_, number⟩, found'⟩ := Option.isSome_iff_exists.mp (parallel.anchors name (by rw [found]; rfl))
    refine ⟨.alias mark' number, src', ?_, parallel, rfl⟩
    rw [bind_apply, get_apply, Option.bind_some]
    simp only [found']
    rfl

end Names

section Trees

/-- Whether there are properties is seen elsewhere too. -/
theorem properties_reads : Reads Balanced (fun given => given.2) properties properties := by
  unfold properties
  refine .peek (fun l l' same => ?_) fun l l' isEnd isKey => ?_
  · rw [same]
    cases first : l.kind with
    | anchor name =>
      refine .skip first ((declare_reads name).bind_nothing fun _ _ _ => .peek (fun m m' same => ?_) fun m m' isEnd isKey => ?_)
      · rw [same]
        cases second : m.kind with
        | tag handle suffix =>
          refine .skip second ((expandTag_reads handle suffix).bind_nothing fun _ _ _ => .pure ?_ rfl)
          exact Balanced.cons rfl rfl (Balanced.cons rfl rfl balanced_nil)
        | _ => exact Reads.at (.pure (Balanced.cons rfl rfl balanced_nil) rfl)
      · simp only [isEnd, isKey]
        exact Reads.at (.pure (Balanced.cons rfl rfl balanced_nil) rfl)
    | tag handle suffix =>
      refine .skip first (.peek (fun m m' same => ?_) fun m m' isEnd isKey => ?_)
      · rw [same]
        cases second : m.kind with
        | anchor name =>
          refine .skip second ((expandTag_reads handle suffix).bind_nothing fun _ _ _ =>
            (declare_reads name).bind_nothing fun _ _ _ => .pure ?_ rfl)
          exact Balanced.cons rfl rfl (Balanced.cons rfl rfl balanced_nil)
        | _ =>
          exact Reads.at ((expandTag_reads handle suffix).bind_nothing fun _ _ _ =>
            .pure (Balanced.cons rfl rfl balanced_nil) rfl)
      · simp only [isEnd, isKey]
        exact Reads.at ((expandTag_reads handle suffix).bind_nothing fun _ _ _ =>
          .pure (Balanced.cons rfl rfl balanced_nil) rfl)
    | _ => exact Reads.at (.pure balanced_nil rfl)
  · simp only [isEnd, isKey]
    exact Reads.at (.pure balanced_nil rfl)

theorem empty?_reads (properties properties' : Properties) (given : Bool) :
    Reads Balanced text? (node.empty? properties given) (node.empty? properties' given) := by
  cases given with
  | true => exact .pure balanced_nil rfl
  | false => exact .failure

theorem alias_or_reads {rest rest' : Parse Node} (later : Reads Balanced text? rest rest') :
    Reads Balanced text?
      (do
        let first ← peek
        match first.kind with
        | .alias name =>
          skip
          match (← get).anchors.find? (·.1 = name) with
          | some (_, number) => return .alias first.start number
          | none => failure
        | _ => rest)
      (do
        let first ← peek
        match first.kind with
        | .alias name =>
          skip
          match (← get).anchors.find? (·.1 = name) with
          | some (_, number) => return .alias first.start number
          | none => failure
        | _ => rest') := by
  refine .peek (fun l l' same => ?_) fun l l' isEnd isKey => ?_
  · rw [same]
    cases first : l.kind with
    | «alias» name =>
      refine .skip first ((lookUp_reads name l.start l'.start).weaken ?_)
      rintro _ rfl
      exact Balanced.cons rfl rfl balanced_nil
    | _ => exact later.at
  · simp only [isEnd, isKey]
    exact later.at

/-- What all readers are proved to keep together, up to an amount of fuel. -/
structure AllRead (fuel fuel' : Nat) : Prop where
  node (place : Place) : Reads Balanced text? (node place fuel) (node place fuel')
  blockItems : Reads (Closes .blockEnd) (fun _ => ()) (blockItems fuel) (blockItems fuel')
  plainItems : Reads Balanced (fun _ => ()) (plainItems fuel) (plainItems fuel')
  blockEntries : Reads (Closes .blockEnd) (fun _ => ()) (blockEntries fuel) (blockEntries fuel')
  flowItems (first : Bool) : Reads (Closes .flowSequenceEnd) (fun _ => ()) (flowItems first fuel) (flowItems first fuel')
  flowValue (close : Kind) (closing : close.closesFlow = true) : Reads Balanced (fun _ => ()) (flowValue close fuel) (flowValue close fuel')
  flowEntries (first : Bool) : Reads (Closes .flowMappingEnd) (fun _ => ()) (flowEntries first fuel)
    (flowEntries first fuel')

theorem AllRead.node_succ (all : AllRead fuel fuel') (place : Place) :
    Reads Balanced text? (Node.node place (fuel + 1)) (Node.node place (fuel' + 1)) := by
  rw [Node.node, Node.node]
  refine alias_or_reads (properties_reads.bind Balanced ?_ fun _ _ => Balanced.append)
  rintro ⟨properties, given⟩ ⟨properties', given'⟩ same
  obtain rfl : given' = given := same
  refine .peek (fun l l' same => ?_) fun l l' isEnd isKey => ?_
  · rw [same]
    cases first : l.kind with
    | scalar plain text => exact .skip first (.pure (Balanced.cons rfl rfl balanced_nil) rfl)
    | flowSequenceStart =>
      refine .skip first (.weaken ((all.flowItems true).map fun _ _ _ => rfl) ?_)
      rintro _ ⟨inner, rfl, balanced⟩
      exact balanced.wrap ⟨rfl, rfl⟩ rfl (Int.le_refl _) fun n => Nat.le_refl n
    | flowMappingStart =>
      refine .skip first (.weaken ((all.flowEntries true).map fun _ _ _ => rfl) ?_)
      rintro _ ⟨inner, rfl, balanced⟩
      exact balanced.wrap ⟨rfl, rfl⟩ rfl (Int.le_refl _) fun n => Nat.le_refl n
    | blockSequenceStart =>
      simp only
      split
      · exact (empty?_reads _ _ given').at
      · refine .skip first (.weaken (all.blockItems.map fun _ _ _ => rfl) ?_)
        rintro _ ⟨inner, rfl, balanced⟩
        exact balanced.wrap ⟨rfl, rfl⟩ rfl (by decide) fun n => Nat.le_refl n
    | blockMappingStart =>
      simp only
      split
      · exact (empty?_reads _ _ given').at
      · refine .skip first (.weaken (all.blockEntries.map fun _ _ _ => rfl) ?_)
        rintro _ ⟨inner, rfl, balanced⟩
        exact balanced.wrap ⟨rfl, rfl⟩ rfl (by decide) fun n => Nat.le_refl n
    | blockEntry =>
      simp only
      split
      · exact Reads.at (all.plainItems.map fun _ _ _ => rfl)
      · exact (empty?_reads _ _ given').at
    | _ => exact (empty?_reads _ _ given').at
  · simp only [isEnd, isKey]
    exact (empty?_reads _ _ given').at

theorem AllRead.blockItems_succ (all : AllRead fuel fuel') :
    Reads (Closes .blockEnd) (fun _ => ()) (Node.blockItems (fuel + 1)) (Node.blockItems (fuel' + 1)) := by
  have onward (item item' : Node) : Reads (Closes .blockEnd) (fun _ => ())
      (do return item :: (← Node.blockItems fuel)) (do return item' :: (← Node.blockItems fuel')) :=
    all.blockItems.map fun _ _ _ => rfl
  rw [Node.blockItems, Node.blockItems]
  refine .next (fun closes => closes.ne_nil rfl) fun l l' same => ?_
  rw [same]
  cases l.kind with
  | blockEnd => exact .pure ⟨[], rfl, balanced_nil⟩ rfl
  | blockEntry =>
    refine .peek_taken (Kind.not_closes_single (by rintro ⟨⟩)) fun m m' same => ?_
    rw [same]
    cases m.kind with
    | blockEntry | blockEnd => exact Reads.at ((onward _ _).weaken fun _ => Closes.cons rfl rfl)
    | _ => exact Reads.at ((all.node .block).bind (Closes .blockEnd) (fun item item' _ => onward item item')
        fun _ _ balanced closes => (balanced.closes closes).cons rfl rfl)
  | _ => exact .failure

theorem AllRead.plainItems_succ (all : AllRead fuel fuel') :
    Reads Balanced (fun _ => ()) (Node.plainItems (fuel + 1)) (Node.plainItems (fuel' + 1)) := by
  have onward (item item' : Node) : Reads Balanced (fun _ => ())
      (do return item :: (← Node.plainItems fuel)) (do return item' :: (← Node.plainItems fuel')) :=
    all.plainItems.map fun _ _ _ => rfl
  rw [Node.plainItems, Node.plainItems]
  refine .peek (fun l l' same => ?_) fun l l' isEnd isKey => ?_
  · rw [same]
    cases first : l.kind with
    | blockEntry =>
      refine .skip first (.peek (fun m m' same => ?_) fun m m' isEnd isKey => ?_)
      · rw [same]
        simp only
        split
        · exact Reads.at ((onward _ _).weaken fun _ => Balanced.cons rfl rfl)
        · exact Reads.at ((all.node .block).bind Balanced (fun item item' _ => onward item item')
            fun _ _ balanced later => (balanced.append later).cons rfl rfl)
      · simp only [isEnd, isKey]
        exact Reads.at ((onward _ _).weaken fun _ => Balanced.cons rfl rfl)
    | _ => exact Reads.at (.pure balanced_nil rfl)
  · simp only [isEnd, isKey]
    exact Reads.at (.pure balanced_nil rfl)

/-- The key of an entry behind its mark. -/
def entryKey (mark : Lexeme) (fuel : Nat) : Parse Node := do
  let following ← peek
  if isBlockStop following.kind then return .empty mark.stop else node .blockValue fuel

/-- The value of an entry behind its key. -/
def entryValue (fuel : Nat) : Parse Node := do
  let colon ← peek
  match colon.kind with
  | .value =>
    skip
    let following ← peek
    if isBlockStop following.kind then return .empty colon.stop else node .blockValue fuel
  | _ => return .empty colon.start

/-- The first entry of a block, and those behind it. -/
theorem blockEntries_succ (fuel : Nat) : blockEntries (fuel + 1) = (do
    let mark ← next
    match mark.kind with
    | .blockEnd => return []
    | .key =>
      let key ← entryKey mark fuel
      let value ← entryValue fuel
      return (key, value) :: (← blockEntries fuel)
    | _ => failure) := by
  rw [blockEntries]
  refine bind_congr fun mark => ?_
  cases mark.kind with
  | key =>
    simp only [entryKey, bind_assoc]
    refine bind_congr fun following => ?_
    have later (key : Node) : (do
        let colon ← peek
        match colon.kind with
        | .value => do
          skip
          let following ← peek
          if isBlockStop following.kind = true then do
            let value ← pure (empty colon.stop)
            return (key, value) :: (← blockEntries fuel)
          else do
            let value ← node .blockValue fuel
            return (key, value) :: (← blockEntries fuel)
        | _ => do
          let value ← pure (empty colon.start)
          return (key, value) :: (← blockEntries fuel)) =
        (do
          let value ← entryValue fuel
          return (key, value) :: (← blockEntries fuel) : Parse (List (Node × Node))) := by
      simp only [entryValue, bind_assoc]
      refine bind_congr fun colon => ?_
      cases colon.kind with
      | value =>
        simp only [bind_assoc]
        refine bind_congr fun _ => bind_congr fun following => ?_
        split <;> rfl
      | _ => rfl
    split
    · exact later _
    · exact bind_congr later
  | _ => rfl

theorem AllRead.entryKey (all : AllRead fuel fuel') (mark mark' : Lexeme) :
    Reads Balanced text? (entryKey mark fuel) (Node.entryKey mark' fuel') := by
  refine .peek (fun l l' same => ?_) fun l l' isEnd isKey => ?_
  · rw [same]
    split
    · exact Reads.at (.pure balanced_nil rfl)
    · exact (all.node .blockValue).at
  · simp only [isEnd, isKey]
    exact Reads.at (.pure balanced_nil rfl)

theorem AllRead.entryValue (all : AllRead fuel fuel') :
    Reads Balanced (fun _ => ()) (entryValue fuel) (Node.entryValue fuel') := by
  refine .peek (fun l l' same => ?_) fun l l' isEnd isKey => ?_
  · rw [same]
    cases first : l.kind with
    | value =>
      refine .skip first (.peek (fun m m' same => ?_) fun m m' isEnd isKey => ?_)
      · rw [same]
        split
        · exact Reads.at (.pure (balanced_nil.cons rfl rfl) rfl)
        · exact Reads.at ((all.node .blockValue).forget.weaken fun _ => Balanced.cons rfl rfl)
      · simp only [isEnd, isKey]
        exact Reads.at (.pure (balanced_nil.cons rfl rfl) rfl)
    | _ => exact Reads.at (.pure balanced_nil rfl)
  · simp only [isEnd, isKey]
    exact Reads.at (.pure balanced_nil rfl)

theorem AllRead.blockEntries_succ (all : AllRead fuel fuel') :
    Reads (Closes .blockEnd) (fun _ => ()) (Node.blockEntries (fuel + 1)) (Node.blockEntries (fuel' + 1)) := by
  rw [Node.blockEntries_succ, Node.blockEntries_succ]
  refine .next (fun closes => closes.ne_nil rfl) fun l l' same => ?_
  rw [same]
  cases l.kind with
  | blockEnd => exact .pure ⟨[], rfl, balanced_nil⟩ rfl
  | key =>
    refine (all.entryKey l l').bind (Closes .blockEnd) (fun _ _ _ => ?_)
      fun _ _ balanced closes => (balanced.closes closes).cons rfl rfl
    exact all.entryValue.bind (Closes .blockEnd) (fun _ _ _ => all.blockEntries.map fun _ _ _ => rfl) fun _ _ => Balanced.closes
  | _ => exact .failure

theorem AllRead.flowValue_succ (all : AllRead fuel fuel') (close : Kind) (closing : close.closesFlow = true) :
    Reads Balanced (fun _ => ()) (Node.flowValue close (fuel + 1)) (Node.flowValue close (fuel' + 1)) := by
  rw [Node.flowValue, Node.flowValue]
  refine .peek (fun l l' same => ?_) fun l l' isEnd isKey => ?_
  · rw [same]
    split
    next colon =>
      refine .skip colon (.peek (fun m m' same => ?_) fun m m' isEnd isKey => ?_)
      · rw [same]
        split
        · exact Reads.at (.pure (balanced_nil.cons rfl rfl) rfl)
        · exact Reads.at ((all.node .flow).forget.weaken fun _ => Balanced.cons rfl rfl)
      · have other : .blockEnd ≠ close ∧ .key ≠ close := by
          constructor
          all_goals
            rintro rfl
            cases closing
        simp only [isEnd, isKey, reduceCtorEq, other, or_self, if_false]
        exact Reads.at ((all.node .flow).forget.weaken fun _ => Balanced.cons rfl rfl)
    next => exact Reads.at (.pure balanced_nil rfl)
  · simp only [isEnd, isKey, reduceCtorEq, if_false]
    exact Reads.at (.pure balanced_nil rfl)

/-- The entries of brackets are separated; behind the last one they may be closed. -/
theorem separated_reads {close : Kind} (first : Bool) {rest rest' : Parse (List α)}
    (later : Reads (Closes close) (fun _ => ()) rest rest') :
    Reads (Closes close) (fun _ => ())
      (do
        let lexeme ← peek
        if lexeme.kind = close then
          skip
          return []
        unless first do
          if lexeme.kind = .flowEntry then skip else failure
        rest)
      (do
        let lexeme ← peek
        if lexeme.kind = close then
          skip
          return []
        unless first do
          if lexeme.kind = .flowEntry then skip else failure
        rest') := by
  refine .peek_taken (fun closes => closes.ne_nil rfl) fun l l' same => ?_
  rw [same]
  by_cases closing : l.kind = close
  · rw [if_pos closing, if_pos closing]
    exact .skip closing (.pure ⟨[], rfl, balanced_nil⟩ rfl)
  · rw [if_neg closing, if_neg closing]
    cases first with
    | true => exact later.at
    | false =>
      by_cases separates : l.kind = .flowEntry
      · simp only [separates]
        exact .skip separates (later.weaken fun _ => Closes.cons rfl rfl)
      · simp only [if_neg separates]
        exact Reads.at .failure

theorem AllRead.flowItems_succ (all : AllRead fuel fuel') (first : Bool) :
    Reads (Closes .flowSequenceEnd) (fun _ => ()) (Node.flowItems first (fuel + 1)) (Node.flowItems first (fuel' + 1)) := by
  have onward (item item' : Node) : Reads (Closes .flowSequenceEnd) (fun _ => ())
      (do return item :: (← Node.flowItems false fuel)) (do return item' :: (← Node.flowItems false fuel')) :=
    (all.flowItems false).map fun _ _ _ => rfl
  have behind (mark mark' : Mark) (key key' : Node) : Reads (Closes .flowSequenceEnd) (fun _ => ())
      (do
        let value ← Node.flowValue .flowSequenceEnd fuel
        return .mapping ⟨mark, none, none⟩ [(key, value)] :: (← Node.flowItems false fuel))
      (do
        let value ← Node.flowValue .flowSequenceEnd fuel'
        return .mapping ⟨mark', none, none⟩ [(key', value)] :: (← Node.flowItems false fuel')) :=
    (all.flowValue .flowSequenceEnd rfl).bind (Closes .flowSequenceEnd) (fun _ _ _ => onward _ _)
      fun _ _ => Balanced.closes
  rw [Node.flowItems, Node.flowItems]
  refine separated_reads first (.peek_taken (fun closes => closes.ne_nil rfl) fun l l' same => ?_)
  rw [same]
  cases isKind : l.kind with
  | flowSequenceEnd => exact .skip isKind (.pure ⟨[], rfl, balanced_nil⟩ rfl)
  | key =>
    refine .skip isKind (.peek_taken (Kind.not_closes_single (by rintro ⟨⟩)) fun m m' same => ?_)
    rw [same]
    cases isKind' : m.kind with
    | value | flowEntry =>
      exact .skip isKind' ((behind l.start l'.start (.empty m.start) (.empty m'.start)).weaken
        fun _ closes => (closes.cons rfl rfl).cons rfl rfl)
    | flowSequenceEnd =>
      exact .skip isKind' ((behind l.start l'.start (.empty m.start) (.empty m'.start)).weaken
        fun _ closes => (closes.cons_closing rfl).cons rfl rfl)
    | _ => exact Reads.at ((all.node .flow).bind (Closes .flowSequenceEnd) (fun _ _ _ => behind _ _ _ _)
        fun _ _ balanced closes => (balanced.closes closes).cons rfl rfl)
  | _ => exact Reads.at ((all.node .flow).bind (Closes .flowSequenceEnd) (fun _ _ _ => onward _ _)
      fun _ _ => Balanced.closes)

theorem AllRead.flowEntries_succ (all : AllRead fuel fuel') (first : Bool) :
    Reads (Closes .flowMappingEnd) (fun _ => ()) (Node.flowEntries first (fuel + 1))
      (Node.flowEntries first (fuel' + 1)) := by
  have onward (entry entry' : Node × Node) : Reads (Closes .flowMappingEnd) (fun _ => ())
      (do return entry :: (← Node.flowEntries false fuel)) (do return entry' :: (← Node.flowEntries false fuel')) :=
    (all.flowEntries false).map fun _ _ _ => rfl
  have behind (key key' : Node) : Reads (Closes .flowMappingEnd) (fun _ => ())
      (do
        let value ← Node.flowValue .flowMappingEnd fuel
        return (key, value) :: (← Node.flowEntries false fuel))
      (do
        let value ← Node.flowValue .flowMappingEnd fuel'
        return (key', value) :: (← Node.flowEntries false fuel')) :=
    (all.flowValue .flowMappingEnd rfl).bind (Closes .flowMappingEnd) (fun _ _ _ => onward _ _)
      fun _ _ => Balanced.closes
  rw [Node.flowEntries, Node.flowEntries]
  refine separated_reads first (.peek_taken (fun closes => closes.ne_nil rfl) fun l l' same => ?_)
  rw [same]
  cases isKind : l.kind with
  | flowMappingEnd => exact .skip isKind (.pure ⟨[], rfl, balanced_nil⟩ rfl)
  | key =>
    refine .skip isKind (.peek_taken (Kind.not_closes_single (by rintro ⟨⟩)) fun m m' same => ?_)
    rw [same]
    cases m.kind with
    | value | flowEntry | flowMappingEnd => exact Reads.at ((behind _ _).weaken fun _ => Closes.cons rfl rfl)
    | _ => exact Reads.at ((all.node .flow).bind (Closes .flowMappingEnd) (fun _ _ _ => behind _ _)
        fun _ _ balanced closes => (balanced.closes closes).cons rfl rfl)
  | _ =>
    refine Reads.at ((all.node .flow).bind (Closes .flowMappingEnd) (fun _ _ _ => ?_) fun _ _ => Balanced.closes)
    exact .peek_taken (fun closes => closes.ne_nil rfl) fun _ _ _ => (onward _ _).at

/-- Nodes are read in the same way elsewhere. The induction is on the fuel. -/
theorem allRead (less : fuel ≤ fuel') : AllRead fuel fuel' := by
  induction fuel generalizing fuel' with
  | zero =>
    refine ⟨fun place => ?_, ?_, ?_, ?_, fun first => ?_, fun close _ => ?_, fun first => ?_⟩
    · rw [node]; exact .failure
    · rw [blockItems]; exact .failure
    · rw [plainItems]; exact .failure
    · rw [blockEntries]; exact .failure
    · rw [flowItems]; exact .failure
    · rw [flowValue]; exact .failure
    · rw [flowEntries]; exact .failure
  | succ fuel ih =>
    obtain ⟨fuel', rfl⟩ := Nat.exists_eq_add_of_le' less
    have all := ih (Nat.le_of_succ_le_succ less)
    exact ⟨all.node_succ, all.blockItems_succ, all.plainItems_succ, all.blockEntries_succ, all.flowItems_succ,
      all.flowValue_succ, all.flowEntries_succ⟩

end Trees

end Node

end Colorization.Yaml
