import Colorization.Proofs.Yaml.Blocks

/-! A printed mapping is divided into the lexemes of its entries. What is printed are characters that
stand for themselves in a YAML text. -/
namespace Colorization.Yaml

section Printed

variable {cs : List Char}

def Printed (cs : List Char) : Prop := ∀ c ∈ cs, isPrintable c = true

theorem Printed.append {more : List Char} (first : Printed cs) (second : Printed more) :
    Printed (cs ++ more) :=
  List.forall_mem_append.mpr ⟨first, second⟩

theorem Printed.cons {c : Char} (first : isPrintable c = true) (second : Printed cs) : Printed (c :: cs) :=
  List.forall_mem_cons.mpr ⟨first, second⟩

theorem printed_nil : Printed [] := by simp [Printed]

theorem printed_spaces (n : Nat) : Printed (List.replicate n ' ') := fun _ member =>
  List.eq_of_mem_replicate member ▸ rfl

theorem printed_lineEnd (cs : List Char) : Printed (lineEnd cs) := by
  unfold lineEnd
  split
  · exact printed_nil
  · exact .cons rfl printed_nil

theorem Printed.endLine (printed : Printed cs) : Printed (endLine cs) := by
  rw [endLine_eq]
  exact printed.append (printed_lineEnd cs)

theorem Printed.indented {written : Char → List Char} (indent : Nat) (printed : Printed cs)
    (each : ∀ c ∈ cs, Printed (written c)) (fresh : Bool) : Printed (indented indent written fresh cs) := by
  induction cs generalizing fresh with
  | nil => exact printed_nil
  | cons c cs ih =>
    rw [Printed, List.forall_mem_cons] at printed
    rw [List.forall_mem_cons] at each
    rw [Yaml.indented]
    split
    · exact .cons printed.1 (ih printed.2 each.2 true)
    · refine .append (.append ?_ each.1) (ih printed.2 each.2 false)
      split
      · exact printed_spaces indent
      · exact printed_nil

theorem printed_literalHeader (cs : List Char) : Printed (literalHeader cs) := by
  rw [literalHeader_eq]
  refine .append ?_ ?_
  · split
    · exact .cons rfl printed_nil
    · exact printed_nil
  · cases chompingOf cs
    · exact .cons rfl printed_nil
    · exact printed_nil
    · exact .cons rfl printed_nil

theorem printed_doubledQuote {c : Char} (printable : isPrintable c = true) : Printed (doubledQuote c) := by
  unfold doubledQuote
  split
  · exact .cons printable (.cons printable printed_nil)
  · exact .cons printable printed_nil

theorem printed_scalar (indent : Nat) (value : String) : Printed (scalar indent value) := by
  have styled := styled_choose value
  rw [scalar]
  generalize Style.choose value = style at styled ⊢
  cases styled with
  | plain _ plain =>
    simp only [plainAllowed, Bool.and_eq_true, List.all_eq_true] at plain
    exact plain.1.1.2
  | singleQuoted _ quotable =>
    simp only [singleQuotedAllowed, Bool.and_eq_true, List.all_eq_true] at quotable
    have printed : Printed value.toList := quotable.1.1
    refine .cons rfl (.append (.append (printed.indented indent
      (fun c member => printed_doubledQuote (printed c member)) false) ?_) (.cons rfl printed_nil))
    split
    · exact printed_spaces indent
    · exact printed_nil
  | doubleQuoted =>
    refine .cons rfl (.append ?_ (.cons rfl printed_nil))
    intro c member
    obtain ⟨d, -, written⟩ := List.mem_flatMap.mp member
    exact (escapedChar_printable d c written).1
  | literal _ quotable =>
    simp only [literalAllowed, Bool.and_eq_true, List.all_eq_true] at quotable
    have printed : Printed value.toList := quotable.1.1
    exact .cons rfl (.append (printed_literalHeader _) (.cons rfl (printed.indented indent
      (fun c member => .cons (printed c member) printed_nil) true)))

theorem isPrintable_of_isNameChar {c : Char} (named : isNameChar c = true) : isPrintable c = true := by
  have ranged : c.isLower = (decide ('a'.val ≤ c.val) && decide (c.val ≤ 'z'.val)) := rfl
  simp only [isNameChar, ranged, Bool.or_eq_true, decide_eq_true_eq] at named
  rcases named with lower | rfl
  · have low : 97 ≤ c.toNat ∧ c.toNat ≤ 122 := by
      simpa [UInt32.le_iff_toNat_le] using lower
    have inside : 0x20 ≤ c.toNat ∧ c.toNat ≤ 0x7E := by omega
    simp [isPrintable, inside]
  · rfl

theorem IsName.printed {key : String} (isName : IsName key) : Printed key.toList :=
  fun c member => isPrintable_of_isNameChar (isName.2.2 c member)

mutual

theorem printed_block : ∀ (block : Block), block.Legible → ∀ indent, Printed (block.written indent)
  | .word text, legible, indent => by
    have plain := legible.1
    simp only [plainAllowed, Bool.and_eq_true, List.all_eq_true] at plain
    exact (Printed.cons rfl plain.1.1.2).endLine
  | .text value, _, indent => (Printed.cons rfl (printed_scalar _ value)).endLine
  | .list [], _, indent => Printed.endLine (.cons rfl (.cons rfl (.cons rfl printed_nil)))
  | .list (first :: items), _, indent => by
    refine .cons rfl fun c member => ?_
    obtain ⟨item, -, written⟩ := List.mem_flatMap.mp member
    have dash : Printed "- ".toList := .cons rfl (.cons rfl printed_nil)
    exact (((printed_spaces indent).append dash).append (printed_scalar _ item)).endLine c written
  | .entries blocks, legible, indent => .cons rfl (printed_entries blocks legible.2 _)

theorem printed_entries : ∀ (entries : List (String × Block)), LegibleEntries entries → ∀ indent,
    Printed (writtenEntries indent entries)
  | [], _, indent => printed_nil
  | (key, block) :: rest, legible, indent => by
    obtain ⟨isName, legibleBlock, legibleRest⟩ := legible
    exact .append (.append (.append (printed_spaces indent) isName.printed)
      (.cons rfl (printed_block block legibleBlock indent))) (printed_entries rest legibleRest indent)

end

end Printed

namespace Scanner

/-- At the end of the text the blocks that are open are closed. -/
theorem run_of_end {s : Scanner} {mark : Mark} {read : List Kind} (start : mark.column = 0)
    (atLine : s.AtLine ⟨mark, []⟩ 0 [-1] read) (fuel : Nat) :
    ∃ last, s.run (fuel + 1) = some last ∧ kinds last.lexemes = read ++ [.blockEnd, .streamEnd] := by
  obtain ⟨t, lexemes, settles, here, told, closed⟩ := atLine
  refine ⟨⟨⟨mark, []⟩, -1, [], none, [], true,
    ⟨.streamEnd, mark, mark⟩ :: ⟨.blockEnd, mark, mark⟩ :: lexemes⟩, ?_, by simp [told]⟩
  have root : t.closeBlocks t.cursor.column = ⟨⟨mark, []⟩, 0, [-1], none, [], true, lexemes⟩ := by
    rw [here, closed]
    exact closeBlocks_of_le (by simp [Cursor.column])
  rw [Scanner.run, settles.settled, Option.bind_eq_bind, Option.bind_some]
  simp only [root]
  simp [finish, closeBlocks, closeBlocks.close, inFlow, dropKey, push, Scanner.mark, start]

end Scanner

/-- A text that is one mapping in the first column is divided into its lexemes. -/
theorem scan?_of_arrives {text body : List Char} {read : List Kind} (allowed : text.all isAllowed = true)
    (same : unifyBreaks text = body) (arrives : (Scanner.start body).Arrives 0 [] 0 [-1] read) :
    ∃ lexemes, Lexeme.scan? (String.ofList text) = some lexemes ∧
      lexemes.map (·.kind) = read ++ [.blockEnd, .streamEnd] := by
  obtain ⟨next, mark, steps, column, ends⟩ := arrives
  obtain ⟨left, enough, run⟩ := steps.run (Nat.lt_succ_self _)
  obtain ⟨left, rfl⟩ := Nat.exists_eq_add_one_of_ne_zero (Nat.ne_of_gt (Nat.zero_lt_of_lt enough))
  obtain ⟨last, finished, told⟩ := Scanner.run_of_end column ends left
  refine ⟨last.lexemes.reverse, ?_, told⟩
  have result : (Scanner.start body).run (body.length + 1) = some last := run.trans finished
  rw [Lexeme.scan?, String.toList_ofList, if_pos allowed, same]
  simp only [result]
  rfl

/-- The lexemes of what is printed for entries. -/
theorem scan?_print {entries : List (String × Block)} (legible : LegibleEntries entries)
    (nonempty : entries ≠ []) : ∃ lexemes, Lexeme.scan? (print entries) = some lexemes ∧
      lexemes.map (·.kind) = .blockMappingStart :: (entriesKinds entries ++ [.blockEnd, .streamEnd]) := by
  have printed := printed_entries entries legible 0
  have allowed : (writtenEntries 0 entries).all isAllowed = true :=
    List.all_eq_true.mpr fun c member => isAllowed_of_isPrintable (printed c member)
  have body : writtenEntries 0 entries = entriesBody 0 entries := writtenEntries_eq 0 nonempty
  have opens : OpensLine (entriesBody 0 entries ++ []) := opensLine_entriesBody 0 nonempty legible []
  rw [List.append_nil] at opens
  have begins : (Scanner.start (entriesBody 0 entries)).AtLine
      ⟨.start, entriesBody 0 entries ++ (List.replicate 0 ' ' ++ [])⟩ (-1) [] [] := by
    rw [List.replicate_zero, List.append_nil, List.append_nil]
    exact Scanner.atLine_here opens nofun
  exact scan?_of_arrives allowed ((unifyBreaks_of_isPrintable printed).trans body)
    (Scanner.arrives_entries entries legible nonempty (by decide) (Nat.le_refl 0) (by simp [OpensLine]) begins)

end Colorization.Yaml
