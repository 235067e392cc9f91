import Colorization.Json.Reader
import Colorization.Proofs.Dict
import Colorization.Proofs.Except

/-! The objects of a value that was read: of the members with one key the last is kept, and
the members stand in the order of their keys, however deep the object is. -/
namespace Colorization

namespace Entries

theorem find?_insert (key other : String) (value : α) (entries : List (String × α)) :
    find? other (insert key value entries) =
      if key = other then some value else find? other entries := by
  induction entries with
  | nil => simp [insert, find?_cons]
  | cons entry rest ih =>
    simp only [insert]
    split
    · rw [find?_cons]
    · split
      next same =>
        rw [find?_cons, find?_cons, ← same]
        split <;> rfl
      next differs =>
        rw [find?_cons, ih, find?_cons]
        by_cases here : entry.1 = other
        · rw [if_pos here, if_pos here, if_neg fun same => differs (same.trans here.symm)]
        · rw [if_neg here, if_neg here]

theorem find?_append (key : String) (first second : List (String × α)) :
    find? key (first ++ second) = (find? key first).or (find? key second) := by
  simp only [find?, List.find?_append]
  cases first.find? fun entry => entry.1 == key <;> rfl

/-- Of several values for one key the last is kept. -/
theorem find?_ofList (key : String) (pairs : List (String × α)) :
    find? key (ofList pairs) = find? key pairs.reverse := by
  suffices ∀ built, find? key (pairs.foldl (fun built pair => insert pair.1 pair.2 built) built) =
      (find? key pairs.reverse).or (find? key built) by
    rw [ofList, this, find?, find?, List.find?_nil]
    exact Option.or_none
  induction pairs with
  | nil => intro built; rfl
  | cons pair rest ih =>
    intro built
    rw [List.foldl_cons, ih, find?_insert, List.reverse_cons, find?_append, find?_cons]
    cases find? key rest.reverse with
    | some value => rfl
    | none => split <;> rfl

theorem mem_of_mem_ofList {pairs : List (String × α)} (member : (key, value) ∈ ofList pairs) :
    (key, value) ∈ pairs := by
  have found := find?_of_mem (sorted_ofList pairs) member
  rw [find?_ofList] at found
  exact List.mem_reverse.mp (mem_of_find? found)

end Entries

namespace Json

/-- Each key of an object is there once, and the keys increase. -/
inductive Ordered : Json → Prop where
  | null : Ordered .null
  | bool : Ordered (.bool value)
  | number : Ordered (.number value)
  | text : Ordered (.text value)
  | array : (∀ item ∈ items, Ordered item) → Ordered (.array items)
  | object : Entries.Sorted members → (∀ member ∈ members, Ordered member.2) →
      Ordered (.object members)

namespace Series

variable {series : Series} {item : Reader α} {property : α → Prop}

theorem of_mem_readMore
    (each : ∀ cs value rest, item.run cs = .ok (value, rest) → property value)
    (read : series.readMore item before cs = .ok (values, rest))
    (earlier : ∀ value ∈ before, property value) : ∀ value ∈ values, property value := by
  fun_induction readMore series item before cs with
  | case1 => cases read
  | case2 =>
    cases read
    simpa using earlier
  | case3 => cases read
  | case4 => cases read
  | case5 => cases read
  | case6 before cs after next tail started notLast value left taken comma notComma shorter ih =>
    apply ih read
    intro other member
    rcases List.mem_cons.mp member with rfl | inBefore
    · exact each _ _ _ taken
    · exact earlier other inBefore
  | case7 => cases read

theorem of_mem_readItems
    (each : ∀ cs value rest, item.run cs = .ok (value, rest) → property value)
    (read : series.readItems item cs = .ok (values, rest)) : ∀ value ∈ values, property value := by
  simp only [readItems] at read
  split at read
  · cases read
  · split at read
    · cases read
      simp
    · split at read
      · cases read
      next taken =>
        apply of_mem_readMore each read
        simpa using each _ _ _ taken

end Series

theorem readMember_ordered {value : Reader Json}
    (each : ∀ cs found rest, value.run cs = .ok (found, rest) → Ordered found)
    (read : readMember value cs = .ok (entry, rest)) : Ordered entry.2 := by
  simp only [readMember] at read
  split at read
  · split at read
    · cases read
    · split at read
      · cases read
      · split at read
        · cases read
        next taken =>
          cases read
          exact each _ _ _ taken
      · cases read
  · cases read

theorem readWord_ordered (ordered : Ordered result)
    (read : readWord result word cs = .ok (value, rest)) : Ordered value := by
  induction word generalizing cs with
  | nil =>
    cases read
    exact ordered
  | cons c word ih =>
    cases cs with
    | nil => cases read
    | cons d tail =>
      simp only [readWord] at read
      split at read
      · exact ih read
      · cases read

theorem readValueWith_ordered {inner : Option (Reader Json)}
    (each : ∀ item, inner = some item →
      ∀ cs value rest, item.run cs = .ok (value, rest) → Ordered value)
    (read : readValueWith inner cs = .ok (value, rest)) : Ordered value := by
  simp only [readValueWith] at read
  split at read
  · cases read
  · split at read
    · exact readWord_ordered .null read
    split at read
    · exact readWord_ordered .bool read
    split at read
    · exact readWord_ordered .bool read
    split at read
    · split at read <;> cases read
      exact .text
    split at read
    · split at read <;> cases read
      exact .number
    split at read
    · cases inner with
      | none => cases read
      | some item =>
        simp only at read
        split at read
        · cases read
        next taken =>
          cases read
          exact .array (Series.of_mem_readItems (each item rfl) taken)
    split at read
    · cases inner with
      | none => cases read
      | some item =>
        simp only at read
        split at read
        · cases read
        next members rest taken =>
          cases read
          apply Ordered.object (Entries.sorted_ofList _)
          intro entry member
          have ordered : ∀ entry ∈ members, Ordered entry.2 :=
            Series.of_mem_readItems (fun _ _ _ read => readMember_ordered (each item rfl) read) taken
          exact ordered entry (Entries.mem_of_mem_ofList member)
    · cases read

/-- The induction is on the depth to which values may be nested. -/
theorem readValue_ordered (depth : Nat) :
    ∀ cs value rest, (readValue depth).run cs = .ok (value, rest) → Ordered value := by
  induction depth with
  | zero =>
    intro cs value rest read
    have read : readValueWith none cs = .ok (value, rest) := read
    exact readValueWith_ordered (by simp) read
  | succ depth ih =>
    intro cs value rest read
    have read : readValueWith (some (readValue depth)) cs = .ok (value, rest) := read
    refine readValueWith_ordered (fun item same => ?_) read
    cases same
    exact ih

theorem read_ordered {document : String} (parsed : read document = .ok value) : Ordered value := by
  rw [read, mapError_eq_ok_iff, readDocument] at parsed
  split at parsed
  · cases parsed
  next taken =>
    split at parsed
    · cases parsed
      exact readValue_ordered _ _ _ _ taken
    · cases parsed

end Json

end Colorization
