import Colorization.Proofs.Yaml.Change

/-! What holds of every state of the scanner: the levels of blocks and brackets are those of the lexemes,
and the possible keys are places that the scanner has come by. -/
namespace Colorization.Yaml

namespace Kind

/-- How a lexeme changes the depth of blocks. -/
def rise : Kind → Int
  | .blockSequenceStart | .blockMappingStart => 1
  | .blockEnd => -1
  | _ => 0

/-- The level of brackets behind a lexeme. A closing bracket too many is passed over. -/
def level (level : Nat) : Kind → Nat
  | .flowSequenceStart | .flowMappingStart => level + 1
  | .flowSequenceEnd | .flowMappingEnd => level - 1
  | _ => level

def depth : List Kind → Int
  | [] => 0
  | kind :: kinds => kind.rise + depth kinds

@[simp] theorem depth_nil : depth [] = 0 := rfl

@[simp] theorem depth_cons (kind : Kind) (kinds : List Kind) : depth (kind :: kinds) = kind.rise + depth kinds := rfl

@[simp] theorem depth_append (first second : List Kind) : depth (first ++ second) = depth first + depth second := by
  induction first with
  | nil => simp
  | cons kind rest ih => simp [ih, Int.add_assoc]

theorem depth_blockEnds (n : Nat) : depth (List.replicate n .blockEnd) = -n := by
  induction n with
  | zero => rfl
  | succ n ih =>
    rw [List.replicate_succ, depth_cons, ih, rise]
    omega

theorem rise_of_bounds {kind : Kind} (inner : kind.bounds = false) : kind.rise = 0 := by
  cases kind <;> first | rfl | cases inner

theorem level_of_bounds {kind : Kind} (inner : kind.bounds = false) (n : Nat) : kind.level n = n := by
  cases kind <;> first | rfl | cases inner

theorem rise_of_opensBlock {kind : Kind} (opens : kind.opensBlock = true) : kind.rise = 1 := by
  cases kind <;> first | rfl | cases opens

theorem level_of_opensBlock {kind : Kind} (opens : kind.opensBlock = true) (n : Nat) : kind.level n = n := by
  cases kind <;> first | rfl | cases opens

theorem rise_of_opensFlow {kind : Kind} (opens : kind.opensFlow = true) : kind.rise = 0 := by
  cases kind <;> first | rfl | cases opens

theorem level_of_opensFlow {kind : Kind} (opens : kind.opensFlow = true) (n : Nat) : kind.level n = n + 1 := by
  cases kind <;> first | rfl | cases opens

theorem rise_of_closesFlow {kind : Kind} (closes : kind.closesFlow = true) : kind.rise = 0 := by
  cases kind <;> first | rfl | cases closes

theorem level_of_closesFlow {kind : Kind} (closes : kind.closesFlow = true) (n : Nat) : kind.level n = n - 1 := by
  cases kind <;> first | rfl | cases closes

end Kind

namespace Scanner

variable {s next : Scanner} {marks : Prop} {key : Option PossibleKey} {outerKeys : List (Option PossibleKey)}

/-- The possible key outside of all brackets. -/
def lowest (key : Option PossibleKey) : List (Option PossibleKey) → Option PossibleKey
  | [] => key
  | outer :: rest => lowest outer rest

/-- A lexeme is put somewhere among the others. -/
theorem insertAt_splits (s : Scanner) (number : Nat) (kind : Kind) (mark : Mark) :
    ∃ later before, s.lexemes = later ++ before ∧
      (s.insertAt number kind mark).lexemes = later ++ ⟨kind, mark, mark⟩ :: before :=
  ⟨_, _, (List.take_append_drop (s.lexemes.length - number) s.lexemes).symm, rfl⟩

/-- A possible key is a place behind which something was left. -/
def Noted (cursor : Cursor) (key : Option PossibleKey) : Prop :=
  ∀ found ∈ key, ∃ rest, rest ≠ [] ∧ (⟨found.mark, rest⟩ : Cursor).Ahead cursor

structure Sound (s : Scanner) : Prop where
  depth : Kind.depth (kinds s.lexemes) = s.outerIndents.length
  level : (kinds s.lexemes).foldl Kind.level 0 = s.outerKeys.length
  rooted : (s.indent :: s.outerIndents).getLast? = some (-1)
  sorted : (s.indent :: s.outerIndents).Pairwise (· > ·)
  noted : ∀ key ∈ s.key :: s.outerKeys, Noted s.cursor key
  aligned : ∀ found ∈ lowest s.key s.outerKeys, s.indent ≤ found.mark.column

theorem sound_start (text : List Char) : (start text).Sound where
  depth := rfl
  level := rfl
  rooted := rfl
  sorted := by simp [start]
  noted := by simp [start, Noted]
  aligned := by simp [start, lowest]

theorem kinds_insertAt (s : Scanner) (number : Nat) (kind : Kind) (mark : Mark) :
    ∃ before later, kinds s.lexemes = before ++ later ∧
      kinds (s.insertAt number kind mark).lexemes = before ++ kind :: later := by
  obtain ⟨later, before, same, inserted⟩ := insertAt_splits s number kind mark
  exact ⟨kinds before, kinds later, by simp [same, kinds], by simp [inserted, kinds]⟩

theorem depth_insertAt (s : Scanner) (number : Nat) (kind : Kind) (mark : Mark) :
    Kind.depth (kinds (s.insertAt number kind mark).lexemes) = Kind.depth (kinds s.lexemes) + kind.rise := by
  obtain ⟨before, later, same, inserted⟩ := kinds_insertAt s number kind mark
  simp only [same, inserted, Kind.depth_append, Kind.depth_cons]
  omega

theorem level_insertAt (s : Scanner) (number : Nat) {kind : Kind} (mark : Mark) (neutral : ∀ n, kind.level n = n)
    (n : Nat) : (kinds (s.insertAt number kind mark).lexemes).foldl Kind.level n =
      (kinds s.lexemes).foldl Kind.level n := by
  obtain ⟨before, later, same, inserted⟩ := kinds_insertAt s number kind mark
  simp [same, inserted, neutral]

theorem Change.depth (change : Change marks s next) (depth : Kind.depth (kinds s.lexemes) = s.outerIndents.length) :
    Kind.depth (kinds next.lexemes) = next.outerIndents.length := by
  cases change with
  | pass | save | forget => exact depth
  | push first last inner => simp [Scanner.push, depth, Kind.rise_of_bounds inner]
  | openFlow first last opens => simp [Scanner.push, depth, Kind.rise_of_opensFlow opens]
  | closeFlow first last closes => simp [Scanner.push, depth, Kind.rise_of_closesFlow closes]
  | mark isKey free => rw [depth_insertAt, depth]; rfl
  | openHere opens outside deeper => simp [Scanner.push, depth, Kind.rise_of_opensBlock opens]
  | openAtKey isKey outside free deeper => simp [depth_insertAt, depth, Kind.rise]
  | closeBlock inside outside =>
    rw [inside, List.length_cons] at depth
    simp only [Scanner.push, kinds_cons, Kind.depth_append, depth, Kind.depth_cons, Kind.rise, Kind.depth_nil]
    omega

theorem Change.level (change : Change marks s next)
    (level : (kinds s.lexemes).foldl Kind.level 0 = s.outerKeys.length) :
    (kinds next.lexemes).foldl Kind.level 0 = next.outerKeys.length := by
  cases change with
  | pass | save => exact level
  | forget fewer => simpa [level] using fewer.length_eq
  | push first last inner => simp [Scanner.push, level, Kind.level_of_bounds inner]
  | openFlow first last opens => simp [Scanner.push, level, Kind.level_of_opensFlow opens]
  | closeFlow first last closes => simp [Scanner.push, level, Kind.level_of_closesFlow closes]
  | mark isKey free => exact (level_insertAt s _ _ (fun _ => rfl) 0).trans level
  | openHere opens outside deeper => simp [Scanner.push, level, Kind.level_of_opensBlock opens]
  | openAtKey isKey outside free deeper => exact (level_insertAt s _ _ (fun _ => rfl) 0).trans level
  | closeBlock inside outside => simp [Scanner.push, level, Kind.level]

theorem Change.rooted (change : Change marks s next) (rooted : (s.indent :: s.outerIndents).getLast? = some (-1)) :
    (next.indent :: next.outerIndents).getLast? = some (-1) := by
  cases change with
  | openHere opens outside deeper => simpa using rooted
  | openAtKey isKey outside free deeper => simpa using rooted
  | closeBlock inside outside => simpa [inside] using rooted
  | _ => exact rooted

theorem pairwise_open {column indent : Int} {outer : List Int} (deeper : indent < column)
    (sorted : (indent :: outer).Pairwise (· > ·)) : (column :: indent :: outer).Pairwise (· > ·) := by
  rw [List.pairwise_cons]
  refine ⟨?_, sorted⟩
  rw [List.pairwise_cons] at sorted
  rw [List.forall_mem_cons]
  exact ⟨deeper, fun other member => Int.lt_trans (sorted.1 other member) deeper⟩

theorem Change.sorted (change : Change marks s next) (sorted : (s.indent :: s.outerIndents).Pairwise (· > ·)) :
    (next.indent :: next.outerIndents).Pairwise (· > ·) := by
  cases change with
  | openHere opens outside deeper => exact pairwise_open deeper sorted
  | openAtKey isKey outside free deeper => exact pairwise_open deeper sorted
  | closeBlock inside outside =>
    rw [inside] at sorted
    exact sorted.of_cons
  | _ => exact sorted

section Fewer

/-- Some of the possible keys are dropped. -/
def Fewer : List (Option PossibleKey) → List (Option PossibleKey) → Prop :=
  List.Forall₂ fun old new => new = none ∨ new = old

theorem Fewer.forall {old new : List (Option PossibleKey)} (fewer : Fewer old new)
    {p : Option PossibleKey → Prop} (nothing : p none) (all : ∀ key ∈ old, p key) : ∀ key ∈ new, p key := by
  induction fewer with
  | nil => exact all
  | cons first later ih =>
    rw [List.forall_mem_cons] at all ⊢
    refine ⟨?_, ih all.2⟩
    rcases first with rfl | rfl
    · exact nothing
    · exact all.1

theorem Fewer.lowest {old new : Option PossibleKey} {olds news : List (Option PossibleKey)}
    (fewer : Fewer (old :: olds) (new :: news)) : lowest new news = none ∨ lowest new news = lowest old olds := by
  induction olds generalizing old new news with
  | nil =>
    obtain _ | ⟨first, _ | _⟩ := fewer
    exact first
  | cons next olds ih =>
    cases fewer with
    | cons _ later =>
      cases later with
      | cons first later =>
        have further := ih (.cons first later)
        exact further

end Fewer

theorem Change.noted (change : Change marks s next) (noted : ∀ key ∈ s.key :: s.outerKeys, Noted s.cursor key) :
    ∀ key ∈ next.key :: next.outerKeys, Noted next.cursor key := by
  have outer : ∀ key ∈ s.outerKeys, Noted s.cursor key := (List.forall_mem_cons.mp noted).2
  cases change with
  | pass allowed ahead =>
    intro key member found isKey
    obtain ⟨rest, some, before⟩ := noted key member found isKey
    exact ⟨rest, some, before.trans ahead⟩
  | push | mark => exact noted
  | save required more deep =>
    refine List.forall_mem_cons.mpr ⟨?_, outer⟩
    rintro _ ⟨⟩
    exact ⟨_, more, .refl _⟩
  | forget fewer => exact Fewer.forall fewer nofun noted
  | openFlow first last opens => exact List.forall_mem_cons.mpr ⟨nofun, noted⟩
  | closeFlow first last closes =>
    refine List.forall_mem_cons.mpr ⟨?_, fun key member => outer key (List.mem_of_mem_tail member)⟩
    cases keys : s.outerKeys with
    | nil => exact nofun
    | cons key keys => exact outer key (by simp [keys])
  | openHere | openAtKey => exact List.forall_mem_cons.mpr ⟨nofun, outer⟩
  | closeBlock => exact noted

theorem Change.aligned (change : Change marks s next) (sorted : (s.indent :: s.outerIndents).Pairwise (· > ·))
    (aligned : ∀ found ∈ lowest s.key s.outerKeys, s.indent ≤ found.mark.column) :
    ∀ found ∈ lowest next.key next.outerKeys, next.indent ≤ found.mark.column := by
  cases change with
  | pass | push | mark => exact aligned
  | save required more deep =>
    cases keys : s.outerKeys with
    | nil =>
      rintro _ ⟨⟩
      exact deep keys
    | cons outer keys => 
      rw [keys] at aligned
      exact aligned
  | forget fewer =>
    intro found isKey
    rcases Fewer.lowest fewer with dropped | same
    · rw [dropped] at isKey
      cases isKey
    · exact aligned found (same ▸ isKey)
  | openFlow first last opens => exact aligned
  | closeFlow first last closes =>
    cases keys : s.outerKeys with
    | nil => exact nofun
    | cons outer keys =>
      rw [keys] at aligned
      exact aligned
  | openHere opens outside deeper | openAtKey isKey outside free deeper =>
    show ∀ found ∈ lowest none s.outerKeys, _
    rw [outside]
    exact nofun
  | closeBlock inside outside =>
    rw [inside, List.pairwise_cons] at sorted
    intro found isKey
    exact Int.le_trans (Int.le_of_lt (sorted.1 _ List.mem_cons_self)) (aligned found isKey)

theorem Change.sound (change : Change marks s next) (sound : s.Sound) : next.Sound :=
  ⟨change.depth sound.depth, change.level sound.level, change.rooted sound.rooted, change.sorted sound.sorted,
    change.noted sound.noted, change.aligned sound.sorted sound.aligned⟩

theorem Changes.sound (changes : Changes marks s next) (sound : s.Sound) : next.Sound := by
  induction changes with
  | refl => exact sound
  | tail _ change ih => exact change.sound ih

/-- Outside of all blocks there are no further ones. -/
theorem Sound.root (sound : s.Sound) (low : s.indent ≤ -1) : s.outerIndents = [] := by
  have rooted := sound.rooted
  have sorted := sound.sorted
  cases levels : s.outerIndents with
  | nil => rfl
  | cons outer rest =>
    rw [levels, List.getLast?_cons_cons] at rooted
    rw [levels, List.pairwise_cons] at sorted
    have higher := sorted.1 _ (List.mem_of_getLast? rooted)
    omega

section Frozen

variable {before : List Lexeme} {exempt : PossibleKey → Prop} {n : Nat}

/-- No key comes before the first `n` lexemes, an exempt one outside of all brackets apart. -/
def Behind (exempt : PossibleKey → Prop) (n : Nat) (key : Option PossibleKey) :
    List (Option PossibleKey) → Prop
  | [] => ∀ found ∈ key, exempt found ∨ n ≤ found.number
  | outer :: rest => (∀ found ∈ key, n ≤ found.number) ∧ Behind exempt n outer rest

theorem Behind.fewer {old new : Option PossibleKey} {olds news : List (Option PossibleKey)}
    (behind : Behind exempt n old olds) (fewer : Fewer (old :: olds) (new :: news)) :
    Behind exempt n new news := by
  induction olds generalizing old new news with
  | nil =>
    obtain _ | ⟨rfl | rfl, _ | _⟩ := fewer
    · exact nofun
    · exact behind
  | cons next olds ih =>
    cases fewer with
    | cons first later =>
      cases later with
      | cons second later =>
        refine ⟨?_, ih behind.2 (.cons second later)⟩
        rcases first with rfl | rfl
        · exact nofun
        · exact behind.1

theorem Behind.number {found : PossibleKey} (behind : Behind exempt n key outerKeys) (isKey : key = some found)
    (free : outerKeys = [] → ¬exempt found) : n ≤ found.number := by
  cases outerKeys with
  | nil => exact (behind found isKey).resolve_left (free rfl)
  | cons outer rest => exact behind.1 found isKey

/-- The first lexemes stay what they are. -/
structure Frozen (exempt : PossibleKey → Prop) (before : List Lexeme) (s : Scanner) : Prop where
  held : ∃ later, s.lexemes = later ++ before
  behind : Behind exempt before.length s.key s.outerKeys

theorem held_insertAt {number : Nat} {kind : Kind} {mark : Mark} (held : ∃ later, s.lexemes = later ++ before)
    (further : before.length ≤ number) : ∃ later, (s.insertAt number kind mark).lexemes = later ++ before := by
  obtain ⟨later, same⟩ := held
  have fits : s.lexemes.length - number ≤ later.length := by
    rw [same, List.length_append]
    omega
  refine ⟨later.take (s.lexemes.length - number) ++ ⟨kind, mark, mark⟩ :: later.drop (s.lexemes.length - number), ?_⟩
  simp only [insertAt, same] at fits ⊢
  rw [List.take_append_of_le_length fits, List.drop_append_of_le_length fits, List.append_assoc, List.cons_append]

theorem held_cons (held : ∃ later, s.lexemes = later ++ before) (lexeme : Lexeme) :
    ∃ later, lexeme :: s.lexemes = later ++ before := by
  obtain ⟨later, same⟩ := held
  exact ⟨lexeme :: later, by rw [same, List.cons_append]⟩

theorem Change.frozen (change : Change marks s next) (free : marks → ∀ key, ¬exempt key)
    (frozen : s.Frozen exempt before) : next.Frozen exempt before := by
  obtain ⟨held, behind⟩ := id frozen
  cases change with
  | pass => exact ⟨held, behind⟩
  | push => exact ⟨held_cons held _, behind⟩
  | save required more deep =>
    have further : before.length ≤ s.lexemes.length := by
      obtain ⟨later, same⟩ := held
      rw [same, List.length_append]
      exact Nat.le_add_left _ _
    refine ⟨held, ?_⟩
    cases keys : s.outerKeys with
    | nil =>
      rintro _ ⟨⟩
      exact .inr further
    | cons outer rest =>
      rw [keys] at behind
      refine ⟨?_, behind.2⟩
      rintro _ ⟨⟩
      exact further
  | forget fewer => exact ⟨held, behind.fewer fewer⟩
  | openFlow => exact ⟨held_cons held _, nofun, behind⟩
  | closeFlow =>
    refine ⟨held_cons held _, ?_⟩
    cases keys : s.outerKeys with
    | nil => exact nofun
    | cons outer rest =>
      rw [keys] at behind
      exact behind.2
  | mark isKey marked => exact ⟨held_insertAt held (behind.number isKey fun outside => free (marked outside) _), behind⟩
  | openHere opens outside deeper =>
    refine ⟨held_cons held _, ?_⟩
    show Behind exempt _ none s.outerKeys
    rw [outside]
    exact nofun
  | openAtKey isKey outside marked deeper =>
    refine ⟨held_insertAt held (behind.number isKey fun _ => free marked _), ?_⟩
    show Behind exempt _ none s.outerKeys
    rw [outside]
    exact nofun
  | closeBlock => exact ⟨held_cons held _, behind⟩

theorem Changes.frozen (changes : Changes marks s next) (free : marks → ∀ key, ¬exempt key)
    (frozen : s.Frozen exempt before) : next.Frozen exempt before := by
  induction changes with
  | refl => exact frozen
  | tail _ change ih => exact change.frozen free ih

theorem Change.mem (change : Change marks s next) {lexeme : Lexeme} (member : lexeme ∈ s.lexemes) :
    lexeme ∈ next.lexemes := by
  have inserted (number : Nat) (kind : Kind) (mark : Mark) : lexeme ∈ (s.insertAt number kind mark).lexemes := by
    obtain ⟨later, before, same, inserted⟩ := insertAt_splits s number kind mark
    rw [same] at member
    rw [inserted]
    simp only [List.mem_append, List.mem_cons] at member ⊢
    tauto
  cases change with
  | pass | save | forget => exact member
  | push | openFlow | closeFlow | openHere | closeBlock => exact List.mem_cons_of_mem _ member
  | mark | openAtKey => exact inserted _ _ _

theorem Changes.mem (changes : Changes marks s next) {lexeme : Lexeme} (member : lexeme ∈ s.lexemes) :
    lexeme ∈ next.lexemes := by
  induction changes with
  | refl => exact member
  | tail _ change ih => exact change.mem ih

end Frozen

end Scanner

end Colorization.Yaml
