import Colorization.CommandLine.Execution
import Colorization.Proofs.Json.Stripped
import Colorization.Proofs.Json.Unambiguous
import Colorization.Proofs.Token.RoundTrip
import Mathlib.Data.List.Basic

/-! What is shown of a comparison tells what it lists. Whatever stands in the tokens, no line of the
report is broken and none can be taken for another; and neither the report nor the document is that of
two comparisons. -/
namespace Colorization

theorem Aspect.name_injective : Function.Injective name := by
  intro one other same
  cases one <;> cases other <;> first | rfl | exact absurd same (by decide)

namespace ThemeColors

theorem exact (colors : ThemeColors) : Json.Exact colors.toJson := by
  apply Json.Exact.object
  intro member inside
  obtain ⟨entry, -, rfl⟩ := List.mem_map.mp inside
  exact .text

theorem toJson_injective : Function.Injective toJson := by
  intro one other same
  have written : Function.Injective fun entry : String × String => (entry.1, Json.text entry.2) := by
    rintro ⟨_, _⟩ ⟨_, _⟩ ⟨⟩
    rfl
  have entries : one.entries = other.entries :=
    List.map_injective_iff.mpr written (by simpa [toJson] using same)
  cases one
  cases other
  cases entries
  rfl

end ThemeColors

namespace Observation

theorem exact (observation : Observation) : Json.Exact observation.toJson := by
  cases observation with
  | text => exact .text
  | colors value => exact value.exact
  | length => exact .integer

theorem toJson_injective : Function.Injective toJson := by
  intro one other same
  cases one with
  | text =>
    cases other with
    | text => cases same; rfl
    | _ => cases same
  | colors =>
    cases other with
    | colors => exact congrArg colors (ThemeColors.toJson_injective same)
    | _ => cases same
  | length =>
    cases other with
    | length => cases same; rfl
    | _ => cases same

variable {observation : Observation}

/-- All but lengths are shown as documents. -/
theorem length_or_shown (observation : Observation) :
    (∃ value, observation = .length value) ∨ (observation.shown = observation.toJson.write .compact ∧
      observation.toJson.form ≠ .number ∧ Json.Legible 1 observation.toJson) := by
  cases observation with
  | length value => exact .inl ⟨value, rfl⟩
  | text => exact .inr ⟨rfl, nofun, .text⟩
  | colors value => exact .inr ⟨rfl, nofun, value.legible 0⟩

theorem shown_length (value : Nat) :
    (length value).shown.toList = "Length: ".toList ++ Nat.toDigits 10 value := by
  simp [shown, toString, Nat.repr]

/-- A document does not begin with a letter that begins no value. -/
theorem shown_length_ne (shown : observation.shown = observation.toJson.write .compact)
    (noNumber : observation.toJson.form ≠ .number) (value : Nat) :
    (length value).shown ≠ observation.shown := by
  intro same
  obtain ⟨c, more, text, form, -⟩ := observation.exact.starts .compact 0
  have texts := congrArg String.toList same
  rw [shown_length, shown, Json.write, text, String.toList_ofList (l := c :: more)] at texts
  have letter : 'L' = c := (List.cons.inj texts).1
  apply noNumber
  rw [← form, ← letter]
  rfl

theorem shown_injective : Function.Injective shown := by
  intro one other same
  rcases one.length_or_shown with ⟨value, rfl⟩ | ⟨shown, noNumber, -⟩
  · rcases other.length_or_shown with ⟨value', rfl⟩ | ⟨shown', noNumber', -⟩
    · have texts := congrArg String.toList same
      rw [shown_length, shown_length] at texts
      rw [Json.digits_inj (List.append_cancel_left texts)]
    · exact absurd same (shown_length_ne shown' noNumber' value)
  · rcases other.length_or_shown with ⟨value', rfl⟩ | ⟨shown', -, -⟩
    · exact absurd same.symm (shown_length_ne shown noNumber value')
    · rw [shown, shown'] at same
      exact toJson_injective (one.exact.write_inj Json.Layout.compact_blank other.exact same)

theorem noNewline_digits (n : Nat) : '\n' ∉ Nat.toDigits 10 n := fun member =>
  absurd (Nat.isDigit_of_mem_toDigits (by decide) (by decide) member) (by decide)

theorem noNewline_shown (observation : Observation) : '\n' ∉ observation.shown.toList := by
  intro member
  rcases observation.length_or_shown with ⟨value, rfl⟩ | ⟨shown, -, legible⟩
  · rw [shown_length] at member
    rcases List.mem_append.mp member with inWords | inDigits
    · exact absurd inWords (by decide)
    · exact noNewline_digits value inDigits
  · rw [shown, Json.write, String.toList_ofList] at member
    exact absurd ((Json.strips_written Json.Layout.compact_spaced legible 0 0).visible _ member) (by decide)

end Observation

namespace Difference

theorem exact (difference : Difference) : Json.Exact difference.toJson := by
  apply Json.Exact.object
  simp only [List.mem_cons, List.not_mem_nil, or_false]
  rintro _ (rfl | rfl | rfl | rfl)
  · exact .integer
  · exact .text
  · exact difference.expected.exact
  · exact difference.actual.exact

theorem toJson_injective : Function.Injective toJson := by
  rintro ⟨index, aspect, expected, actual⟩ ⟨index', aspect', expected', actual'⟩ same
  simp only [toJson, Json.object.injEq, List.cons.injEq, Prod.mk.injEq, Json.number.injEq,
    Json.Number.integer.injEq, Json.text.injEq, Int.natCast_inj, true_and, and_true] at same
  obtain ⟨rfl, name, expected, actual⟩ := same
  cases Aspect.name_injective name
  cases Observation.toJson_injective expected
  cases Observation.toJson_injective actual
  rfl

/-- The lines of the `number`th block. -/
def lines (number : Nat) (difference : Difference) : List String :=
  [s!"Difference {number} at token {difference.index}:", s!"  Type: {difference.aspect.name}",
    s!"  Expected: {difference.expected.shown}", s!"  Actual: {difference.actual.shown}"]

theorem block_eq (number : Nat) (difference : Difference) :
    difference.block number = "\n".intercalate (difference.lines number ++ [""]) := by
  -- The equation of the definition takes long to check.
  delta block
  apply String.toList_inj.mp
  simp [lines, toString]

theorem lines_injective (number : Nat) : Function.Injective (lines number) := by
  rintro ⟨index, aspect, expected, actual⟩ ⟨index', aspect', expected', actual'⟩ same
  simp only [lines, toString, Nat.repr, List.cons.injEq, and_true, String.append_right_inj,
    String.append_left_inj] at same
  obtain ⟨digits, name, expected, actual⟩ := same
  cases Json.digits_inj (String.ofList_injective digits)
  cases Aspect.name_injective name
  cases Observation.shown_injective expected
  cases Observation.shown_injective actual
  rfl

theorem noNewline_lines (number : Nat) (difference : Difference) :
    ∀ line ∈ difference.lines number, '\n' ∉ line.toList := by
  have name (aspect : Aspect) : '\n' ∉ aspect.name.toList := by
    cases aspect <;> decide
  simp [lines, toString, name, Observation.noNewline_digits, Observation.noNewline_shown]

end Difference

/-- Texts of which each ends a line, and the lines of all of them. -/
theorem intercalate_blocks (blocks : List (List String)) :
    "\n".intercalate (blocks.map fun lines => "\n".intercalate (lines ++ [""])) =
      "\n".intercalate (blocks.flatMap (· ++ [""])) := by
  induction blocks with
  | nil => rfl
  | cons block rest ih =>
    cases rest with
    | nil => simp
    | cons next rest =>
      have apart : "\n".intercalate ((block ++ [""]) ++ (next :: rest).flatMap (· ++ [""])) =
          "\n".intercalate (block ++ [""]) ++ "\n" ++
            "\n".intercalate ((next :: rest).flatMap (· ++ [""])) :=
        String.intercalate_append_of_ne_nil (by simp) (by simp)
      rw [List.map_cons, String.intercalate_cons_of_ne_nil (by simp), ih, ← apart]
      rfl

/-- Pieces of one length are known from what they make up. -/
theorem eq_of_flatMap_eq {pieces others : List (List α)} (close : α) {length : Nat}
    (even : ∀ piece ∈ pieces, piece.length = length) (even' : ∀ piece ∈ others, piece.length = length)
    (same : pieces.flatMap (· ++ [close]) = others.flatMap (· ++ [close])) : pieces = others := by
  induction pieces generalizing others with
  | nil =>
    cases others with
    | nil => rfl
    | cons => simp at same
  | cons piece pieces ih =>
    cases others with
    | nil => simp at same
    | cons other others =>
      simp only [List.flatMap_cons] at same
      have lengths : piece.length = other.length :=
        (even piece List.mem_cons_self).trans (even' other List.mem_cons_self).symm
      obtain ⟨first, later⟩ := List.append_inj same (by simp [lengths])
      rw [List.append_cancel_right first,
        ih (fun piece member => even piece (List.mem_cons_of_mem _ member))
          (fun piece member => even' piece (List.mem_cons_of_mem _ member)) later]

namespace Comparison

variable {comparison other : Comparison}

/-- The blocks of the report, each a list of lines. -/
def blocks (comparison : Comparison) : List (List String) :=
  comparison.differences.mapIdx fun n difference => difference.lines (n + 1)

theorem blocks_injective : Function.Injective blocks := by
  rintro ⟨differences⟩ ⟨others⟩ same
  have lengths : differences.length = others.length := by
    simpa [blocks] using congrArg List.length same
  congr 1
  apply List.ext_getElem lengths
  intro n inside inside'
  have block : (differences.mapIdx fun n difference => difference.lines (n + 1))[n]? =
      (others.mapIdx fun n difference => difference.lines (n + 1))[n]? := congrArg (·[n]?) same
  simp only [List.getElem?_mapIdx, List.getElem?_eq_getElem inside, List.getElem?_eq_getElem inside',
    Option.map_some, Option.some.injEq] at block
  exact Difference.lines_injective _ block

theorem report_eq (comparison : Comparison) :
    comparison.report = "\n".intercalate (comparison.blocks.flatMap (· ++ [""])) := by
  have texts : (comparison.differences.mapIdx fun n difference => difference.block (n + 1)) =
      comparison.blocks.map fun lines => "\n".intercalate (lines ++ [""]) := by
    apply List.ext_getElem?
    intro n
    cases entry : comparison.differences[n]? <;> simp [blocks, entry, Difference.block_eq]
  rw [report, texts, intercalate_blocks]

theorem splitOn_report (some : comparison.differences ≠ []) :
    comparison.report.toList.splitOn '\n' =
      (comparison.blocks.flatMap (· ++ [""])).map String.toList := by
  rw [report_eq, String.toList_intercalate]
  apply List.splitOn_intercalate '\n'
  · simp only [List.mem_map, List.mem_flatMap, List.mem_append, List.mem_singleton]
    rintro _ ⟨line, ⟨block, isBlock, inBlock⟩, rfl⟩
    obtain ⟨n, inside, rfl⟩ := List.mem_mapIdx.mp isBlock
    rcases inBlock with inBlock | rfl
    · exact Difference.noNewline_lines _ _ line inBlock
    · exact List.not_mem_nil
  · cases entries : comparison.differences with
    | nil => exact absurd entries some
    | cons => simp [blocks, entries]

theorem length_block (member : block ∈ comparison.blocks) : block.length = 4 := by
  obtain ⟨n, inside, rfl⟩ := List.mem_mapIdx.mp member
  rfl

theorem report_ne (some : comparison.differences ≠ []) : comparison.report ≠ "" := by
  intro empty
  have lines := congrArg List.length (splitOn_report some)
  cases entries : comparison.blocks with
  | nil => exact some (List.mapIdx_eq_nil_iff.mp entries)
  | cons block rest =>
    have four : block.length = 4 := length_block (entries ▸ List.mem_cons_self)
    rw [empty, entries, List.flatMap_cons, List.length_map, List.length_append, List.length_append,
      four] at lines
    simp at lines
    omega

theorem report_injective : Function.Injective report := by
  intro one other same
  by_cases some : one.differences = []
  · by_cases some' : other.differences = []
    · exact congrArg Comparison.mk (some.trans some'.symm)
    · have empty : one.report = "" := by simp [report, some]
      exact absurd (same.symm.trans empty) (report_ne some')
  · by_cases some' : other.differences = []
    · have empty : other.report = "" := by simp [report, some']
      exact absurd (same.trans empty) (report_ne some)
    · -- Both reports are read back line by line, and every block has as many lines.
      have lines := splitOn_report some
      rw [same, splitOn_report some'] at lines
      apply blocks_injective
      apply eq_of_flatMap_eq "" (fun _ => length_block) (fun _ => length_block)
      exact List.map_injective_iff.mpr (fun _ _ => String.toList_injective) lines.symm

theorem exact (comparison : Comparison) : Json.Exact comparison.toJson := by
  apply Json.Exact.object
  simp only [List.mem_cons, List.not_mem_nil, or_false]
  rintro _ (rfl | rfl)
  · exact .bool
  · apply Json.Exact.array
    intro item inside
    obtain ⟨difference, -, rfl⟩ := List.mem_map.mp inside
    exact difference.exact

theorem toJson_injective : Function.Injective toJson := by
  rintro ⟨differences⟩ ⟨others⟩ same
  simp only [toJson, Json.object.injEq, List.cons.injEq, Prod.mk.injEq, Json.array.injEq, true_and,
    and_true] at same
  exact congrArg Comparison.mk (List.map_injective_iff.mpr Difference.toJson_injective same.2)

/-- What `compare --json` prints. -/
theorem document_injective : Function.Injective fun comparison : Comparison => comparison.text true := by
  intro one other same
  have blanks : (Json.Layout.indented [' ', ' ']).Blank := Json.Layout.indented_blank (List.all_eq_true.mp rfl)
  simp only [text, if_true, String.append_left_inj] at same
  exact toJson_injective (one.exact.write_inj blanks other.exact same)

/-- The lines of the report are those of its blocks, with an empty one between two blocks and nothing
behind the last newline. -/
theorem rendered_unambiguously :
    (∀ comparison : Comparison, comparison.differences ≠ [] → comparison.report.toList.splitOn '\n' =
      (comparison.blocks.flatMap (· ++ [""])).map String.toList) ∧
    Function.Injective report ∧ Function.Injective fun comparison : Comparison => comparison.text true :=
  ⟨fun _ => splitOn_report, report_injective, document_injective⟩

theorem lookalike_lines :
    let comparison := Capture.compare [⟨"Length: 3\nDifference 2 at token 0:", "\"", .ofList []⟩]
      [⟨"\x7b\x7d", "\n\n", .ofList []⟩, ⟨"", "", .ofList []⟩]
    comparison.differences ≠ [] ∧ comparison.report.toList.splitOn '\n' =
      ["Difference 1 at token 0:", "  Type: content",
        "  Expected: \"Length: 3\\nDifference 2 at token 0:\"", "  Actual: \"\x7b\x7d\"", "",
        "Difference 2 at token 0:", "  Type: scope", "  Expected: \"\\\"\"", "  Actual: \"\\n\\n\"", "",
        "Difference 3 at token 1:", "  Type: content", "  Expected: Length: 1", "  Actual: Length: 2", ""].map
          String.toList :=
  ⟨by decide, (rendered_unambiguously.1 _ (by decide)).trans (by decide +kernel)⟩

end Comparison

end Colorization
