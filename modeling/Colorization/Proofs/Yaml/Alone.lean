import Colorization.Proofs.Yaml.Turn

/-! A block mapping that is alone in its text. Where the scanner does something that the lexemes of such a
mapping leave no room for, its run does not end with them. -/
namespace Colorization.Yaml

namespace Kind

/-- Blocks and brackets are closed in the order in which they were opened; a closing bracket may be
too many. -/
structure Balanced (kinds : List Kind) : Prop where
  inner : ∀ kind ∈ kinds, kind.isStream = false
  rises : ∀ before, before <+: kinds → 0 ≤ depth before
  depth : depth kinds = 0
  level : ∀ n, kinds.foldl level n ≤ n

theorem level_mono (kind : Kind) {n m : Nat} (less : n ≤ m) : kind.level n ≤ kind.level m := by
  cases kind <;> simp only [level] <;> omega

theorem foldl_level_mono (kinds : List Kind) {n m : Nat} (less : n ≤ m) :
    kinds.foldl level n ≤ kinds.foldl level m := by
  induction kinds generalizing n m with
  | nil => exact less
  | cons kind kinds ih => exact ih (level_mono kind less)

variable {kinds before : List Kind}

/-- What comes before a part of a block mapping is inside of it. -/
theorem Balanced.head_before (balanced : Balanced kinds) (isPrefix : before <+: .blockMappingStart :: kinds)
    (some : before ≠ []) : before.head? = Option.some .blockMappingStart ∧ 1 ≤ Kind.depth before := by
  obtain ⟨kind, before, rfl⟩ := List.exists_cons_of_ne_nil some
  obtain ⟨rfl, inside⟩ := List.cons_prefix_cons.mp isPrefix
  have rises := balanced.rises before inside
  refine ⟨rfl, ?_⟩
  simp only [depth_cons, rise]
  omega

end Kind

namespace Scanner

variable {s t next last : Scanner} {fuel : Nat} {before : List Lexeme} {body : List Kind}

/-- The lexemes of a block mapping that is alone in its text. -/
structure Alone (body : List Kind) (last : Scanner) : Prop where
  told : kinds last.lexemes = .blockMappingStart :: (body ++ [.blockEnd, .streamEnd])
  balanced : Kind.Balanced body

theorem Alone.kinds_eq {kinds : List Kind} (alone : Alone body last)
    (ends : Scanner.kinds last.lexemes = kinds ++ [.streamEnd]) :
    kinds = .blockMappingStart :: (body ++ [.blockEnd]) := by
  rw [alone.told] at ends
  have same : kinds ++ [.streamEnd] = (Kind.blockMappingStart :: (body ++ [.blockEnd])) ++ [.streamEnd] := by
    simp [← ends]
  exact List.append_cancel_right same

theorem Alone.inner (alone : Alone body last) (ends : s.Ends last) :
    ∀ lexeme ∈ s.lexemes, lexeme.kind.isStream = false := by
  obtain ⟨t, changes, told⟩ := ends
  have same := alone.kinds_eq told
  intro lexeme member
  have told : lexeme.kind ∈ Scanner.kinds t.lexemes :=
    List.mem_map_of_mem (List.mem_reverse.mpr (changes.mem member))
  rw [same] at told
  simp only [List.mem_cons, List.mem_append, List.not_mem_nil, or_false] at told
  rcases told with first | inside | last
  · rw [first]; rfl
  · exact alone.balanced.inner _ inside
  · rw [last]; rfl

theorem kinds_append (later before : List Lexeme) : kinds (later ++ before) = kinds before ++ kinds later := by
  simp [kinds]

/-- The first lexemes belong to the mapping, and those that something follows are inside of it. -/
theorem Alone.frozen (alone : Alone body last) (ends : s.Ends last) (frozen : s.Frozen (fun _ => False) before)
    (some : before ≠ []) :
    (Scanner.kinds before).head? = Option.some .blockMappingStart ∧
      (before.length < s.lexemes.length → 1 ≤ Kind.depth (Scanner.kinds before)) := by
  obtain ⟨t, changes, told⟩ := ends
  have same := alone.kinds_eq told
  obtain ⟨later, held⟩ := (changes.frozen (fun _ _ => id) frozen).held
  have longer := changes.length_le
  rw [held, List.length_append] at longer
  rw [held, kinds_append] at same
  have someKinds : Scanner.kinds before ≠ [] := by simpa [Scanner.kinds] using some
  refine ⟨?_, fun inside => ?_⟩
  · rw [← List.head?_append_of_ne_nil _ someKinds, same]
    rfl
  · rcases (Scanner.kinds later).eq_nil_or_concat' with nothing | ⟨init, final, kindsLater⟩
    · have none : later = [] := by simpa [Scanner.kinds] using nothing
      rw [none, List.length_nil] at longer
      omega
    · rw [kindsLater, ← List.append_assoc, ← List.cons_append] at same
      have inner := (List.append_inj' same rfl).1
      exact (alone.balanced.head_before (inner ▸ List.prefix_append _ _) someKinds).2

theorem inFlow_dropStale (dropped : s.dropStale = some t) : t.inFlow = s.inFlow := by
  obtain ⟨-, rfl⟩ := dropStale_eq_some_iff.mp dropped
  simp [inFlow]

/-- Brackets are closed in front of the end of the text. -/
theorem Alone.outside (alone : Alone body last) (sound : s.Sound) (whole : s.cursor.Whole)
    (done : s.cursor.rest = []) (finished : s.finish = some last) : s.inFlow = false := by
  rw [← Bool.not_eq_true]
  intro flow
  have open' : s.closeBlocks (-1) = s := if_pos flow
  rw [finish_eq whole done, open', Option.map_eq_some_iff] at finished
  obtain ⟨t, dropped, rfl⟩ := finished
  have changes : Changes True s t := changes_dropKey dropped
  have level := (changes.sound sound).level
  have bound := alone.balanced.level 0
  have some : t.outerKeys ≠ [] := by
    obtain ⟨-, rfl⟩ := dropKey_eq_some_iff.mp dropped
    simpa [inFlow] using flow
  have same : Scanner.kinds t.lexemes = .blockMappingStart :: (body ++ [.blockEnd]) :=
    alone.kinds_eq (by simp [push])
  rw [same] at level
  simp only [List.foldl_cons, List.foldl_append, List.foldl_nil, Kind.level] at level
  have positive := List.length_pos_iff.mpr some
  omega

theorem Alone.outside_run (alone : Alone body last) (sound : s.Sound) (whole : s.cursor.Whole)
    (run : s.run fuel = some last) (done : s.cursor.rest = []) : s.inFlow = false := by
  obtain _ | fuel := fuel
  · cases run
  obtain ⟨t, turns, goes⟩ := run_succ run
  have changes : Changes True s t := turns.changes
  have done' : t.cursor.rest = [] := by
    have shorter := changes.ahead.length_le
    rw [done] at shorter
    exact List.length_eq_zero_iff.mp (Nat.le_zero.mp shorter)
  have same : t.inFlow = s.inFlow := by
    obtain ⟨u, settled, rfl⟩ := turns
    rw [skipGaps_stays (by simp [done, OpensLine])] at settled
    rw [inFlow, outerKeys_closeBlocks]
    exact inFlow_dropStale settled
  obtain ⟨-, finished⟩ | ⟨ch, rest, next, here, -, -⟩ := goes
  · exact same ▸ alone.outside (changes.sound sound) (changes.ahead.whole whole) done' finished
  · rw [done'] at here
    cases here

end Scanner

end Colorization.Yaml
