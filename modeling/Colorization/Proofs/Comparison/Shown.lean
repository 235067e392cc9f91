import Colorization.CommandLine.Execution
import Colorization.Proofs.Json.Legible

/-! What the command line shows of a comparison. Either form of it has the whole of every
difference. -/
namespace Colorization

theorem infix_intercalate {line between : List α} {lines : List (List α)} (member : line ∈ lines) :
    line <:+: between.intercalate lines := by
  apply List.infix_of_mem_flatten
  induction lines with
  | nil => cases member
  | cons first rest ih =>
    cases rest with
    | nil => exact member
    | cons second rest =>
      rw [List.intersperse_cons_cons]
      rcases List.mem_cons.mp member with rfl | member
      · exact List.mem_cons_self
      · exact List.mem_cons_of_mem _ (List.mem_cons_of_mem _ (ih member))

namespace Json

variable {layout : Layout} {depth : Nat}

theorem infix_bracketed {item : List Char} {items : List (List Char)} (member : item ∈ items)
    (first last : Char) : item <:+: bracketed layout depth first last items := by
  cases items with
  | nil => cases member
  | cons head rest =>
    rw [bracketed]
    rcases List.mem_cons.mp member with rfl | member
    · exact ⟨first :: layout.line (depth + 1), _, by simp only [List.append_assoc, List.cons_append]; rfl⟩
    · have inside : ',' :: (layout.line (depth + 1) ++ item) <:+:
          rest.flatMap fun other => ',' :: (layout.line (depth + 1) ++ other) :=
        List.infix_of_mem_flatten (List.mem_map_of_mem member)
      have own : item <:+: ',' :: (layout.line (depth + 1) ++ item) :=
        (List.suffix_append ..).isInfix.trans (List.suffix_cons ..).isInfix
      refine (own.trans inside).trans ⟨first :: (layout.line (depth + 1) ++ head), layout.line depth ++ [last], ?_⟩
      simp only [List.append_assoc, List.cons_append]

theorem infix_written_array {item : Json} {items : List Json} (member : item ∈ items) :
    written layout (depth + 1) item <:+: written layout depth (.array items) := by
  rw [written, writtenItems_eq_map]
  exact infix_bracketed (List.mem_map_of_mem member) ..

theorem infix_written_object {member : String × Json} {members : List (String × Json)}
    (isMember : member ∈ members) :
    written layout (depth + 1) member.2 <:+: written layout depth (.object members) := by
  rw [written, writtenMembers_eq_map]
  refine List.IsInfix.trans ?_ (infix_bracketed (List.mem_map_of_mem isMember) ..)
  exact ⟨quoted member.1 ++ ':' :: layout.afterColon, [], by simp [writtenMember]⟩

end Json

/-- The text of a difference, which is the one with this number counted from zero. -/
def Difference.shown (json : Bool) (number : Nat) (difference : Difference) : List Char :=
  if json then Json.written (.indented [' ', ' ']) 2 difference.toJson
  else (difference.block (number + 1)).toList

namespace Comparison

variable {comparison : Comparison} {difference : Difference} {number : Nat}

theorem infix_report
    (isThere : comparison.differences[number]? = some difference) :
    (difference.block (number + 1)).toList <:+: comparison.report.toList := by
  rw [report, String.toList_intercalate]
  apply infix_intercalate
  apply List.mem_map_of_mem
  obtain ⟨inside, rfl⟩ := List.getElem?_eq_some_iff.mp isThere
  exact List.mem_mapIdx.mpr ⟨number, inside, rfl⟩

/-- Every difference is in the text, whole. -/
theorem infix_text (json : Bool)
    (isThere : comparison.differences[number]? = some difference) :
    difference.shown json number <:+: (comparison.text json).toList := by
  have some : comparison.identical = false := by
    cases empty : comparison.differences with
    | nil => simp [empty] at isThere
    | cons => simp [identical, empty]
  cases json with
  | true =>
    have inArray : Json.written (.indented [' ', ' ']) 2 difference.toJson <:+:
        Json.written (.indented [' ', ' ']) 1 (.array (comparison.differences.map Difference.toJson)) :=
      Json.infix_written_array (List.mem_map_of_mem (List.mem_of_getElem? isThere))
    have isMember : ("diffs", Json.array (comparison.differences.map Difference.toJson)) ∈
        [("identical", .bool comparison.identical),
          ("diffs", .array (comparison.differences.map Difference.toJson))] :=
      List.mem_cons_of_mem _ List.mem_cons_self
    have inObject : Json.written (.indented [' ', ' ']) 1
        (.array (comparison.differences.map Difference.toJson)) <:+:
          Json.written (.indented [' ', ' ']) 0 comparison.toJson :=
      Json.infix_written_object isMember
    simp only [Difference.shown, text, if_true, Json.write, String.toList_append, String.toList_ofList]
    exact (inArray.trans inObject).trans (List.prefix_append ..).isInfix
  | false =>
    simp only [Difference.shown, text, Bool.false_eq_true, if_false, some, String.toList_append]
    exact (infix_report isThere).trans (List.suffix_append ..).isInfix

end Comparison

end Colorization
