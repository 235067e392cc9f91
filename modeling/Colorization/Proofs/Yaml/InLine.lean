import Colorization.Proofs.Yaml.Ahead

/-! Directives, tags and anchors stay in their line, so they are read in the same way in any place. -/
namespace Colorization.Yaml

variable {α β : Type} {cursor later : Cursor} {spot : Spot} {c : Char}

/-- The reader moves on in its line and is not disturbed by what comes behind it. -/
structure InLine (read : Cursor → Option (α × Cursor)) : Prop where
  ahead : ∀ {cursor later value}, read cursor = some (value, later) → cursor.Ahead later
  ends : ∀ {cursor later value}, EndsLine cursor.rest → read cursor = some (value, later) → EndsLine later.rest
  moved : ∀ {cursor} (spot : Spot), EndsLine cursor.rest →
    read (cursor.moved spot) = (read cursor).map fun result => (result.1, result.2.moved spot)

namespace InLine

variable {read : Cursor → Option (α × Cursor)} {next : α → Cursor → Option (β × Cursor)}

theorem none : InLine fun _ => (Option.none : Option (α × Cursor)) where
  ahead := nofun
  ends := fun _ => nofun
  moved _ _ := rfl

theorem pure (value : α) : InLine fun cursor => some (value, cursor) where
  ahead same := by
    cases same
    exact .refl _
  ends ends same := by
    cases same
    exact ends
  moved _ _ := rfl

theorem bind (first : InLine read) (onward : ∀ value, InLine (next value)) :
    InLine fun cursor => (read cursor).bind fun result => next result.1 result.2 where
  ahead same := by
    obtain ⟨⟨value, middle⟩, isFirst, isNext⟩ := Option.bind_eq_some_iff.mp same
    exact (first.ahead isFirst).trans ((onward value).ahead isNext)
  ends ended same := by
    obtain ⟨⟨value, middle⟩, isFirst, isNext⟩ := Option.bind_eq_some_iff.mp same
    exact (onward value).ends (first.ends ended isFirst) isNext
  moved := by
    intro cursor spot ended
    simp only [first.moved spot ended]
    cases isFirst : read cursor with
    | none => rfl
    | some result => exact (onward result.1).moved spot (first.ends ended isFirst)

/-- What has been read may turn out to be no good. -/
theorem check {next : β → Cursor → Option (α × Cursor)} (result : Option β) (onward : ∀ value, InLine (next value)) :
    InLine fun cursor => result.bind fun value => next value cursor := by
  cases result with
  | none => exact .none
  | some value => exact onward value

theorem span (test : Char → Bool) (inLine : ∀ c, isBreak c = true → test c = false) :
    InLine fun cursor => some (cursor.span test) where
  ahead {cursor later _} same := by
    obtain rfl : (cursor.span test).2 = later := congrArg Prod.snd (Option.some.inj same)
    exact Cursor.ahead_span _ _
  ends {cursor later _} ended same := by
    obtain rfl : (cursor.span test).2 = later := congrArg Prod.snd (Option.some.inj same)
    exact Cursor.endsLine_span inLine ended
  moved _ ended := congrArg some (Cursor.span_moved inLine ended)

/-- What begins with a sign is read behind it. -/
theorem behind (sign : Char) (inLine : isBreak sign = false) {other : Cursor → Option (α × Cursor)}
    (onward : InLine read) (otherwise : InLine other) :
    InLine fun cursor => if cursor.next? = some sign then read (cursor.skip 1) else other cursor where
  ahead same := by
    split at same
    · exact (Cursor.ahead_skip _ 1).trans (onward.ahead same)
    · exact otherwise.ahead same
  ends ended same := by
    split at same
    next first =>
      exact onward.ends (Cursor.endsLine_skip_one ended fun c member => by
        rw [first] at member
        exact Option.some.inj member ▸ inLine) same
    next => exact otherwise.ends ended same
  moved := by
    intro cursor spot ended
    simp only [Cursor.next?_moved ended.ne_nil, Cursor.skip_one_moved ended.ne_nil]
    split
    next first =>
      exact onward.moved spot (Cursor.endsLine_skip_one ended fun c member => by
        rw [first] at member
        exact Option.some.inj member ▸ inLine)
    next => exact otherwise.moved spot ended

end InLine

/-- No line break is among characters that are none. -/
theorem of_isBreak {test : Char → Bool} (none : (['\n', '\r', '\x85', '\u2028', '\u2029'].any test) = false)
    (c : Char) (broken : isBreak c = true) : test c = false := by
  simp only [List.any_cons, List.any_nil, Bool.or_false, Bool.or_eq_false_iff] at none
  simp only [isBreak, Bool.or_eq_true, decide_eq_true_eq] at broken
  rcases broken with (((rfl | rfl) | rfl) | rfl) | rfl <;> simp [none]

theorem inLine_uri? (brackets : Bool) : InLine (uri? brackets) :=
  .bind (.span (isUriChar brackets) (of_isBreak (by cases brackets <;> decide))) fun raw =>
    .check (decodeUri raw.length raw) .pure

theorem not_isWordChar (c : Char) (broken : isBreak c = true) : isWordChar c = false :=
  of_isBreak (by decide) c broken

theorem inLine_handle? : InLine handle? :=
  .behind '!' rfl (.bind (.span isWordChar not_isWordChar) fun word =>
    .behind '!' rfl (.pure ('!' :: word ++ ['!'])) (.pure ('!' :: word))) .none

section Anchors

theorem ahead_anchorName? {name : String} (read : anchorName? cursor = some (name, later)) :
    (cursor.skip 1).Ahead later := by
  simp only [anchorName?] at read
  split at read
  · cases read
  · cases read
    exact Cursor.ahead_span _ _

theorem endsLine_anchorName? {name : String} (ends : EndsLine (cursor.skip 1).rest)
    (read : anchorName? cursor = some (name, later)) : EndsLine later.rest := by
  simp only [anchorName?] at read
  split at read
  · cases read
  · cases read
    exact Cursor.endsLine_span not_isWordChar ends

theorem anchorName?_moved (ends : EndsLine (cursor.skip 1).rest) (some : cursor.rest ≠ []) :
    anchorName? (cursor.moved spot) = (anchorName? cursor).map fun result => (result.1, result.2.moved spot) := by
  have ended := Cursor.endsLine_span not_isWordChar ends
  simp only [anchorName?, Cursor.skip_one_moved some, Cursor.span_moved not_isWordChar ends,
    Cursor.next?_moved ended.ne_nil]
  split <;> rfl

end Anchors

section Tags

theorem ahead_handle? {handle : List Char} (read : handle? cursor = some (handle, later)) :
    (cursor.skip 1).Ahead later := by
  have word := Cursor.ahead_span (cursor.skip 1) isWordChar
  simp only [handle?] at read
  split at read
  · split at read
    · cases read
      exact word.trans (Cursor.ahead_skip _ 1)
    · cases read
      exact word
  · cases read

theorem ahead_tag? {handle suffix : String} (read : tag? cursor = some (handle, suffix, later)) :
    (cursor.skip 1).Ahead later := by
  simp only [tag?, Option.bind_eq_bind] at read
  split at read
  · obtain ⟨⟨uri, behind⟩, isUri, read⟩ := Option.bind_eq_some_iff.mp read
    have ahead := (Cursor.ahead_skip_succ cursor 1).trans ((inLine_uri? true).ahead isUri)
    split at read
    · cases read
    · cases read
      exact ahead.trans (Cursor.ahead_skip _ 1)
  · obtain ⟨⟨word, middle⟩, isHandle, read⟩ := Option.bind_eq_some_iff.mp read
    have ahead := ahead_handle? isHandle
    split at read
    all_goals
      obtain ⟨⟨uri, behind⟩, isUri, read⟩ := Option.bind_eq_some_iff.mp read
      have further := ahead.trans ((inLine_uri? false).ahead isUri)
      split at read <;> cases read
      exact further
    exact further

theorem endsLine_tag? {handle suffix : String} (ends : EndsLine cursor.rest)
    (read : tag? cursor = some (handle, suffix, later)) : EndsLine later.rest := by
  simp only [tag?, Option.bind_eq_bind] at read
  split at read
  next verbatim =>
    have begins : ∀ c ∈ cursor.rest.take 2, isBreak c = false := by
      rw [verbatim]
      exact unbroken_of_any rfl
    obtain ⟨⟨uri, behind⟩, isUri, read⟩ := Option.bind_eq_some_iff.mp read
    have ended := (inLine_uri? true).ends (Cursor.endsLine_skip ends begins) isUri
    split at read
    · cases read
    next closed =>
      cases read
      refine Cursor.endsLine_skip_one ended fun c first => ?_
      simp only [not_or, ne_eq, Decidable.not_not] at closed
      rw [closed.2] at first
      cases first
      rfl
  next =>
    obtain ⟨⟨word, middle⟩, isHandle, read⟩ := Option.bind_eq_some_iff.mp read
    have ended := inLine_handle?.ends ends isHandle
    split at read
    all_goals
      obtain ⟨⟨uri, behind⟩, isUri, read⟩ := Option.bind_eq_some_iff.mp read
      have further := (inLine_uri? false).ends ended isUri
      split at read <;> cases read
      exact further
    exact further

theorem tag?_moved (ends : EndsLine (cursor.skip 1).rest) (bang : cursor.next? = some '!') :
    tag? (cursor.moved spot) = (tag? cursor).map fun result => (result.1, result.2.1, result.2.2.moved spot) := by
  obtain ⟨mark, _ | ⟨c, _ | ⟨d, rest⟩⟩⟩ := cursor
  · cases bang
  · exact absurd rfl ends.ne_nil
  obtain rfl : c = '!' := Option.some.inj bang
  have whole : EndsLine ('!' :: d :: rest) := ends.append ['!']
  have moved : ((⟨mark, '!' :: d :: rest⟩ : Cursor).moved spot).rest = '!' :: d :: (rest ++ spot.more) := rfl
  have handled : handle? ((⟨mark, '!' :: d :: rest⟩ : Cursor).moved spot) =
      (handle? ⟨mark, '!' :: d :: rest⟩).map fun result => (result.1, result.2.moved spot) :=
    inLine_handle?.moved spot whole
  simp only [tag?, Option.bind_eq_bind, moved, List.take_succ_cons, List.take_zero, handled]
  split
  next verbatim =>
    obtain rfl : d = '<' := by simpa using verbatim
    have inside : EndsLine rest := ends.tail rfl
    have skipped : ((⟨mark, '!' :: '<' :: rest⟩ : Cursor).moved spot).skip 2 =
        ((⟨mark, '!' :: '<' :: rest⟩ : Cursor).skip 2).moved spot := Cursor.skip_moved inside.ne_nil
    rw [skipped, (inLine_uri? true).moved spot inside]
    cases isUri : uri? true ((⟨mark, '!' :: '<' :: rest⟩ : Cursor).skip 2) with
    | none => rfl
    | some uri =>
      have ended := (inLine_uri? true).ends inside isUri
      simp only [Option.map_some, Option.bind_some, Cursor.next?_moved ended.ne_nil,
        Cursor.skip_one_moved ended.ne_nil]
      split <;> rfl
  next =>
    cases isHandle : handle? ⟨mark, '!' :: d :: rest⟩ with
    | none => rfl
    | some handle =>
      have ended := inLine_handle?.ends whole isHandle
      simp only [Option.map_some, Option.bind_some, (inLine_uri? false).moved spot ended]
      cases uri? false handle.2 with
      | none => split <;> rfl
      | some uri =>
        simp only [Option.map_some, Option.bind_some]
        repeat' split
        all_goals rfl

end Tags

section Directives

theorem ahead_number? {value : Nat} (read : number? cursor = some (value, later)) : cursor.Ahead later := by
  simp only [number?] at read
  split at read
  · cases read
  · cases read
    exact Cursor.ahead_span _ _

theorem ahead_versionDirective? {kind : Kind} (read : versionDirective? cursor = some (kind, later)) :
    cursor.Ahead later := by
  simp only [versionDirective?, Option.bind_eq_bind] at read
  obtain ⟨⟨major, middle⟩, isMajor, read⟩ := Option.bind_eq_some_iff.mp read
  have ahead := (Cursor.ahead_skipWhile cursor isBlank).trans (ahead_number? isMajor)
  split at read
  · cases read
  · obtain ⟨⟨minor, last⟩, isMinor, read⟩ := Option.bind_eq_some_iff.mp read
    cases read
    exact ahead.trans ((Cursor.ahead_skip _ 1).trans (ahead_number? isMinor))

theorem ahead_tagDirective? {kind : Kind} (read : tagDirective? cursor = some (kind, later)) :
    cursor.Ahead later := by
  simp only [tagDirective?, Option.bind_eq_bind] at read
  obtain ⟨⟨handle, middle⟩, isHandle, read⟩ := Option.bind_eq_some_iff.mp read
  have ahead := (Cursor.ahead_skipWhile cursor isBlank).trans (inLine_handle?.ahead isHandle)
  split at read
  · cases read
  split at read
  · cases read
  obtain ⟨⟨uri, last⟩, isUri, read⟩ := Option.bind_eq_some_iff.mp read
  split at read
  · cases read
  · cases read
    exact ahead.trans ((Cursor.ahead_skipWhile _ _).trans ((inLine_uri? true).ahead isUri))

theorem ahead_directive? {kind : Kind} (read : directive? cursor = some (kind, later)) :
    (cursor.skip 1).Ahead later := by
  simp only [directive?, Option.bind_eq_bind] at read
  have name := Cursor.ahead_span (cursor.skip 1) isWordChar
  split at read
  · cases read
  split at read
  · obtain ⟨⟨kind, middle⟩, isKind, read⟩ := Option.bind_eq_some_iff.mp read
    obtain ⟨last, finished, read⟩ := Option.bind_eq_some_iff.mp read
    cases read
    exact name.trans ((ahead_versionDirective? isKind).trans (Cursor.ahead_finishLine? finished))
  split at read
  · obtain ⟨⟨kind, middle⟩, isKind, read⟩ := Option.bind_eq_some_iff.mp read
    obtain ⟨last, finished, read⟩ := Option.bind_eq_some_iff.mp read
    cases read
    exact name.trans ((ahead_tagDirective? isKind).trans (Cursor.ahead_finishLine? finished))
  · cases read

end Directives

end Colorization.Yaml
