import Colorization.Proofs.Yaml.Beside.Actions
import Colorization.Proofs.Yaml.Alone

/-! Between the lexemes. -/
namespace Colorization.Yaml

namespace Scanner

variable {site : Site} {front base : List Lexeme} {s c t u next : Scanner} {cursor : Cursor} {fuel : Nat}

section Gaps

namespace Beside

/-- Gaps are passed over up to the same place, or up to the next line behind the text. -/
theorem skipGaps (beside : Beside site front base s c) {fuel fuel' : Nat} (whole : cursor.Whole)
    (ended : cursor.rest = [] → s.inFlow = false → s.keyAllowed = true)
    (enough : cursor.rest.length < fuel) (enough' : (cursor.moved site.spot).rest.length < fuel') :
    Beside site front base (Scanner.skipGaps { s with cursor } fuel)
      (Scanner.skipGaps { c with cursor := cursor.moved site.spot } fuel') := by
  induction fuel generalizing s c cursor fuel' with
  | zero => exact absurd enough (Nat.not_lt_zero _)
  | succ fuel ih =>
    obtain ⟨fuel', rfl⟩ := Nat.exists_eq_add_one_of_ne_zero (Nat.ne_of_gt (Nat.zero_lt_of_lt enough'))
    obtain ends | ⟨done, start⟩ := whole
    · have tabs : (Scanner.inFlow { c with cursor := cursor.moved site.spot } || !c.keyAllowed) =
          (s.inFlow || !s.keyAllowed) := by
        rw [beside.allowed, ← beside.inFlow]
        rfl
      obtain ⟨moved, gapEnds⟩ := gapCursor_moved site.spot (s.inFlow || !s.keyAllowed) ends
      have shorter := (ahead_gapCursor (s.inFlow || !s.keyAllowed) cursor).length_le
      have alone : Scanner.inFlow { s with cursor } = s.inFlow := rfl
      rw [skipGaps_succ, skipGaps_succ]
      simp only [tabs, alone, moved, Cursor.next?_moved gapEnds.ne_nil, Cursor.skip_one_moved gapEnds.ne_nil]
      generalize gapCursor (s.inFlow || !s.keyAllowed) cursor = gap at gapEnds shorter ⊢
      obtain ⟨mark, rest⟩ := gap
      obtain ⟨ch, rest, rfl⟩ := List.exists_cons_of_ne_nil gapEnds.ne_nil
      simp only [List.length_cons] at shorter
      split
      next =>
        have whole : ((⟨mark, ch :: rest⟩ : Cursor).skip 1).Whole :=
          (Cursor.ahead_skip _ 1).whole (.inl gapEnds)
        have allowed : Beside site front base { s with keyAllowed := s.keyAllowed || !s.inFlow }
            { c with keyAllowed := c.keyAllowed || !c.inFlow } :=
          { beside with
            allowed := by rw [beside.allowed, beside.inFlow]
            ended := fun _ outside => by 
              have outside : s.inFlow = false := outside
              simp [outside] }
        refine ih allowed whole (fun _ outside => ?_) ?_ ?_
        · have outside : s.inFlow = false := outside
          simp [outside]
        · show rest.length < fuel
          omega
        · show (rest ++ site.spot.more).length < fuel'
          simp only [Cursor.rest_moved, List.length_append] at enough' ⊢
          omega
      next => exact beside.move (Cursor.landed_of_ne_nil (List.cons_ne_nil ch rest)).symm nofun
    · obtain ⟨mark, rest⟩ := cursor
      obtain rfl : rest = [] := done
      have nothing : OpensLine [] := by simp [OpensLine]
      show Beside site front base
        (Scanner.skipGaps { s with cursor := ⟨mark, List.replicate 0 ' ' ++ []⟩ } (fuel + 1))
        (Scanner.skipGaps { c with cursor := ⟨mark.moved site.spot, site.spot.more⟩ } (fuel' + 1))
      rw [skipGaps_landing nothing, Spot.more, skipGaps_landing site.spot.opens]
      refine beside.move ?_ ended
      rw [Cursor.landed_of_end rfl]
      rfl

/-- From behind a lexeme up to the next one. -/
theorem skipGaps_next (beside : Beside site front base s c) (whole : s.cursor.Whole) :
    Beside site front base (s.skipGaps (s.cursor.rest.length + 1)) (c.skipGaps (c.cursor.rest.length + 1)) := by
  have here := beside.cursor
  rcases eq_or_ne s.cursor.rest [] with done | some
  · rw [skipGaps_stays (done ▸ nofun), skipGaps_stays]
    · exact beside
    · rw [here, Cursor.landed_of_end done]
      exact site.spot.opens
  · rw [Cursor.landed_of_ne_nil some] at here
    have moved := beside.skipGaps whole beside.ended (Nat.lt_succ_self _) (Nat.lt_succ_self _)
    rw [← here] at moved
    exact moved

end Beside

end Gaps

section Stale

variable {found found' : PossibleKey}

/-- Behind the end of the text every possible key is of an earlier line. -/
theorem line_lt_of_noted (noted : Noted cursor (some found)) (done : cursor.rest = []) (start : cursor.column = 0) :
    found.mark.line < cursor.mark.line := by
  obtain ⟨rest, some, taken, here, mark⟩ := noted found rfl
  rw [done, List.append_nil] at here
  obtain rfl : rest = taken := here
  obtain ⟨before, last, rfl⟩ := rest.eq_nil_or_concat'.resolve_left some
  rw [Cursor.column, mark, Mark.after_append, Mark.after_cons, Mark.after_nil] at start
  have broken : isBreak last = true := by
    by_contra inLine
    rw [Mark.advance_of_not_isBreak (by simpa using inLine)] at start
    cases start
  rw [mark]
  exact Mark.line_lt_after _ (by simp) broken

theorem isStale_moved {cursor' : Cursor} (here : cursor' = cursor.landed site.spot) (whole : cursor.Whole)
    (noted : Noted cursor (some found)) (mark : found'.mark = found.mark.moved site.spot) :
    isStale cursor'.mark found' = isStale cursor.mark found := by
  subst here
  rcases eq_or_ne cursor.rest [] with done | some
  · have start := (whole.resolve_left fun ended => ended.ne_nil done).2
    have earlier := line_lt_of_noted noted done start
    rw [Cursor.landed_of_end done, Mark.after_spaces]
    simp [isStale, mark, earlier]
  · rw [Cursor.landed_of_ne_nil some]
    simp only [isStale, mark, Cursor.mark_moved, Mark.line_moved, Mark.index_moved]
    congr 1 <;> simp only [decide_eq_decide] <;> omega

theorem fresh_moved {spot : Spot} {front base : Nat} {now now' : Mark} {key key' : Option PossibleKey}
    (pair : Option.Rel (KeyMoved spot front base) key key')
    (same : ∀ found ∈ key, ∀ found', found'.mark = found.mark.moved spot → isStale now' found' = isStale now found)
    (safe : ∀ found ∈ key, isStale now found = true → found.number ≠ 0) (droppable : Droppable now key) :
    Droppable now' key' ∧ Option.Rel (KeyMoved spot front base) (fresh now key) (fresh now' key') := by
  cases pair with
  | none => exact ⟨nofun, .none⟩
  | @some found found' moved =>
    have same := same found rfl found' moved.mark
    cases stale : isStale now found with
    | false =>
      rw [stale] at same
      refine ⟨?_, by simpa [fresh, Option.filter, stale, same] using Option.Rel.some moved⟩
      rintro _ ⟨⟩ isStale
      rw [same] at isStale
      cases isStale
    | true =>
      rw [stale] at same
      refine ⟨?_, by simp [fresh, Option.filter, stale, same]⟩
      rintro _ ⟨⟩ -
      rw [moved.required.resolve_right (safe found rfl stale)]
      exact droppable found rfl stale

theorem forall₂_fresh {r : Option PossibleKey → Option PossibleKey → Prop} {now : Mark} (now' : Mark)
    {keys keys' : List (Option PossibleKey)} (pairs : List.Forall₂ r keys keys')
    (each : ∀ key ∈ keys, ∀ key', r key key' → Droppable now' key' ∧ r (fresh now key) (fresh now' key')) :
    (∀ key ∈ keys', Droppable now' key) ∧ List.Forall₂ r (keys.map (fresh now)) (keys'.map (fresh now')) := by
  induction pairs with
  | nil => exact ⟨by simp, .nil⟩
  | cons first later ih =>
    rw [List.forall_mem_cons] at each
    obtain ⟨droppable, pair⟩ := each.1 _ first
    obtain ⟨droppables, pairs⟩ := ih each.2
    exact ⟨List.forall_mem_cons.mpr ⟨droppable, droppables⟩, .cons pair pairs⟩

/-- Stale keys are the same in both places, and all are stale behind the end of the text. -/
theorem Beside.dropStale (beside : Beside site front base s c) (whole : s.cursor.Whole) (sound : s.Sound)
    (safe : ∀ key ∈ s.key :: s.outerKeys, ∀ found ∈ key, isStale s.mark found = true → found.number ≠ 0)
    (dropped : s.dropStale = some t) : ∃ u, c.dropStale = some u ∧ Beside site front base t u := by
  obtain ⟨droppable, rfl⟩ := dropStale_eq_some_iff.mp dropped
  obtain ⟨droppable', pairs⟩ := forall₂_fresh c.mark (.cons beside.key beside.outerKeys)
    fun key member key' pair => fresh_moved pair
      (fun found isKey found' mark => isStale_moved beside.cursor whole (isKey ▸ sound.noted key member) mark)
      (safe key member) (droppable key member)
  rw [List.map_cons, List.map_cons, List.forall₂_cons] at pairs
  exact ⟨_, dropStale_eq_some_iff.mpr ⟨droppable', rfl⟩,
    { beside with key := pairs.1, outerKeys := pairs.2, ended := fun done outside => beside.ended done (by simpa [Scanner.inFlow] using outside) }⟩

end Stale

end Scanner

end Colorization.Yaml
