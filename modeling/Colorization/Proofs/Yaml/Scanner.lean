import Colorization.Proofs.Yaml.Plain
import Colorization.Yaml.Scanner
import Mathlib.Logic.Relation

/-! The scanner goes from one lexeme to the next. What it holds at the start of a line is told up to
the blocks that this line closes. -/
namespace Colorization.Yaml

namespace Scanner

variable {s t next : Scanner} {mark : Mark} {rest : List Char} {indent : Int} {outer : List Int}
  {key : Option PossibleKey} {allowed : Bool} {lexemes : List Lexeme}

/-- Gaps and keys that are none are behind. -/
structure Settles (s t : Scanner) : Prop where
  settled : (s.skipGaps (s.cursor.rest.length + 1)).dropStale = some t
  shorter : t.cursor.rest.length ≤ s.cursor.rest.length

/-- One lexeme is taken. -/
def Step (s next : Scanner) : Prop :=
  ∃ t c rest, s.Settles t ∧ t.cursor.rest = c :: rest ∧
    (t.closeBlocks t.cursor.column).lexeme c rest = some next ∧ next.cursor.rest.length ≤ rest.length

def Steps : Scanner → Scanner → Prop := Relation.ReflTransGen Step

theorem cursor_close (s : Scanner) (column : Int) (outer : List Int) :
    (closeBlocks.close column s outer).cursor = s.cursor := by
  induction outer generalizing s with
  | nil => rfl
  | cons first outer ih =>
    rw [closeBlocks.close]
    split
    · rw [ih]
      rfl
    · rfl

@[simp] theorem cursor_closeBlocks (s : Scanner) (column : Int) :
    (s.closeBlocks column).cursor = s.cursor := by
  unfold closeBlocks
  split
  · rfl
  · exact cursor_close s column _

theorem Step.shorter (step : Step s next) : next.cursor.rest.length < s.cursor.rest.length := by
  obtain ⟨t, c, rest, settles, here, -, short⟩ := step
  have before := settles.shorter
  rw [here, List.length_cons] at before
  omega

theorem Step.run (step : Step s next) (fuel : Nat) : s.run (fuel + 1) = next.run fuel := by
  obtain ⟨t, c, rest, settles, here, read, -⟩ := step
  simp [Scanner.run, settles.settled, here, read]

/-- The run goes on where the steps lead. -/
theorem Steps.run (steps : Steps s next) {fuel : Nat} (enough : s.cursor.rest.length < fuel) :
    ∃ left, next.cursor.rest.length < left ∧ s.run fuel = next.run left := by
  induction steps with
  | refl => exact ⟨fuel, enough, rfl⟩
  | tail _ step ih =>
    obtain ⟨_ | left, more, same⟩ := ih
    · exact absurd more (Nat.not_lt_zero _)
    · have shorter := step.shorter
      exact ⟨left, by omega, same.trans (step.run left)⟩

section Gaps

/-- Spaces are passed over up to what is neither blank nor a comment. -/
theorem skipGap_spaces {test : Char → Bool} (space : test ' ' = true)
    (blanks : ∀ c, test c = true → isBlank c = true) (n : Nat)
    (stops : ∀ c ∈ rest.head?, isBlank c = false ∧ c ≠ '#' ∧ isOrderMark c = false) :
    ((⟨mark, List.replicate n ' ' ++ rest⟩ : Cursor).skipOrderMark.skipWhile test).skipComment =
      ⟨mark.after (List.replicate n ' '), rest⟩ := by
  have noOrderMark : (⟨mark, List.replicate n ' ' ++ rest⟩ : Cursor).next?.any isOrderMark = false := by
    cases n with
    | succ n => rfl
    | zero => cases rest <;> simp_all [Cursor.next?]
  have spaces : ∀ c ∈ List.replicate n ' ', test c = true := fun c member =>
    List.eq_of_mem_replicate member ▸ space
  have ends : ∀ c ∈ rest.head?, test c = false := fun c first => by
    rw [← Bool.not_eq_true]
    exact fun passes => absurd (blanks c passes) (by simp [(stops c first).1])
  have noComment : rest.head? ≠ some '#' := fun first => (stops '#' first).2.1 rfl
  rw [Cursor.skipOrderMark, noOrderMark, Bool.and_false, if_neg Bool.false_ne_true, Cursor.skipWhile,
    Cursor.span, Cursor.spanFrom_append spaces ends, Cursor.skipComment, Cursor.next?, if_neg noComment]

theorem isBlank_of_gap {tabs : Bool} {c : Char} (gap : (c = ' ' || tabs && c = '\t') = true) :
    isBlank c = true := by
  simp only [isBlank, Bool.or_eq_true, Bool.and_eq_true] at gap ⊢
  exact gap.imp_right And.right

theorem skipGaps_spaces (n : Nat) (opens : OpensLine rest) (fuel : Nat) :
    skipGaps ⟨⟨mark, List.replicate n ' ' ++ rest⟩, indent, outer, key, [], allowed, lexemes⟩ (fuel + 1) =
      ⟨⟨mark.after (List.replicate n ' '), rest⟩, indent, outer, key, [], allowed, lexemes⟩ := by
  have inLine : (⟨mark.after (List.replicate n ' '), rest⟩ : Cursor).next?.any isBreak = false := by
    cases rest with
    | nil => rfl
    | cons c rest => exact (opens c rfl).2.1
  rw [skipGaps]
  simp only
  rw [skipGap_spaces (by simp) (fun _ => isBlank_of_gap) n fun c first =>
    ⟨(opens c first).1, (opens c first).2.2⟩]
  simp [inLine]

theorem skipGaps_feed (n : Nat) (opens : OpensLine rest) (fuel : Nat) :
    skipGaps ⟨⟨mark, '\n' :: (List.replicate n ' ' ++ rest)⟩, indent, outer, key, [], allowed, lexemes⟩
        (fuel + 2) =
      ⟨⟨mark.after ('\n' :: List.replicate n ' '), rest⟩, indent, outer, key, [], true, lexemes⟩ := by
  have nothing (tabs : Bool) : ((⟨mark, '\n' :: (List.replicate n ' ' ++ rest)⟩ : Cursor).skipOrderMark
      |>.skipWhile fun c => c = ' ' || tabs && c = '\t').skipComment =
      ⟨mark, '\n' :: (List.replicate n ' ' ++ rest)⟩ :=
    skipGap_spaces (by simp) (fun _ => isBlank_of_gap) 0 (by simp [isBlank, isOrderMark])
  rw [skipGaps]
  simp only [nothing]
  exact (if_pos rfl).trans (by simpa [inFlow, Cursor.skip] using skipGaps_spaces n opens fuel)

end Gaps

section Keys

/-- A possible key of an earlier line, which need not be one. -/
def IsPast (key : Option PossibleKey) (mark : Mark) : Prop :=
  ∀ found ∈ key, found.required = false ∧ found.mark.line < mark.line

theorem dropStale_of_isPast (past : IsPast key mark) :
    dropStale ⟨⟨mark, rest⟩, indent, outer, key, [], allowed, lexemes⟩ =
      some ⟨⟨mark, rest⟩, indent, outer, none, [], allowed, lexemes⟩ := by
  cases key with
  | none => rfl
  | some found =>
    obtain ⟨notRequired, earlier⟩ := past found rfl
    have stale : isStale mark found = true := by simp [isStale, earlier]
    simp [dropStale, Scanner.mark, stale, notRequired]

/-- A possible key lives on in its line. -/
theorem dropStale_of_near {found : PossibleKey} (sameLine : mark.line ≤ found.mark.line)
    (near : mark.index ≤ found.mark.index + 1024) :
    dropStale ⟨⟨mark, rest⟩, indent, outer, some found, [], allowed, lexemes⟩ =
      some ⟨⟨mark, rest⟩, indent, outer, some found, [], allowed, lexemes⟩ := by
  have fresh : isStale mark found = false := by simp [isStale, sameLine, near]
  simp [dropStale, Scanner.mark, fresh]

end Keys

section Lines

/-- Behind spaces in a line, or in front of the spaces of the next line. -/
theorem settles_spaces (n : Nat) (opens : OpensLine rest)
    (past : IsPast key (mark.after (List.replicate n ' '))) :
    Settles ⟨⟨mark, List.replicate n ' ' ++ rest⟩, indent, outer, key, [], allowed, lexemes⟩
      ⟨⟨mark.after (List.replicate n ' '), rest⟩, indent, outer, none, [], allowed, lexemes⟩ where
  settled := by rw [skipGaps_spaces n opens, dropStale_of_isPast past]
  shorter := by simp

theorem settles_feed (n : Nat) (opens : OpensLine rest)
    (past : IsPast key (mark.after ('\n' :: List.replicate n ' '))) :
    Settles ⟨⟨mark, '\n' :: (List.replicate n ' ' ++ rest)⟩, indent, outer, key, [], allowed, lexemes⟩
      ⟨⟨mark.after ('\n' :: List.replicate n ' '), rest⟩, indent, outer, none, [], true, lexemes⟩ where
  settled := by
    rw [List.length_cons, skipGaps_feed n opens, dropStale_of_isPast past]
  shorter := by
    simp
    omega

theorem settles_near {found : PossibleKey} (opens : OpensLine rest) (sameLine : mark.line ≤ found.mark.line)
    (near : mark.index ≤ found.mark.index + 1024) :
    Settles ⟨⟨mark, rest⟩, indent, outer, some found, [], allowed, lexemes⟩
      ⟨⟨mark, rest⟩, indent, outer, some found, [], allowed, lexemes⟩ where
  settled := (congrArg dropStale (skipGaps_spaces 0 opens _)).trans (dropStale_of_near sameLine near)
  shorter := Nat.le_refl _

def kinds (lexemes : List Lexeme) : List Kind := lexemes.reverse.map (·.kind)

@[simp] theorem kinds_cons (lexeme : Lexeme) (lexemes : List Lexeme) :
    kinds (lexeme :: lexemes) = kinds lexemes ++ [lexeme.kind] := by
  simp [kinds]

/-- What has been told of the lexemes is their kinds; the next one begins a line. Blocks that the
line closes count as closed. -/
def AtLine (s : Scanner) (cursor : Cursor) (indent : Int) (outer : List Int) (read : List Kind) : Prop :=
  ∃ t lexemes, s.Settles t ∧ t.cursor = cursor ∧ kinds lexemes = read ∧
    t.closeBlocks cursor.column =
      closeBlocks ⟨cursor, indent, outer, none, [], true, lexemes⟩ cursor.column

theorem atLine_here (opens : OpensLine rest) (past : IsPast key mark) :
    AtLine ⟨⟨mark, rest⟩, indent, outer, key, [], true, lexemes⟩ ⟨mark, rest⟩ indent outer
      (kinds lexemes) :=
  ⟨_, lexemes, settles_spaces 0 opens past, rfl, rfl, rfl⟩

theorem atLine_feed (n : Nat) (opens : OpensLine rest)
    (past : IsPast key (mark.after ('\n' :: List.replicate n ' '))) :
    AtLine ⟨⟨mark, '\n' :: (List.replicate n ' ' ++ rest)⟩, indent, outer, key, [], allowed, lexemes⟩
      ⟨mark.after ('\n' :: List.replicate n ' '), rest⟩ indent outer (kinds lexemes) :=
  ⟨_, lexemes, settles_feed n opens past, rfl, rfl, rfl⟩

end Lines

end Scanner

end Colorization.Yaml
