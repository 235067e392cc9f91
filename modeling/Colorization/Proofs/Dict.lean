import Colorization.Dict

/-! A sorted list of entries is the function that it stands for: looking up finds what is
listed, and equal look-ups make equal lists. -/
namespace Colorization

namespace Entries

theorem find?_cons (key : String) (entry : String × α) (rest : List (String × α)) :
    find? key (entry :: rest) = if entry.1 = key then some entry.2 else find? key rest := by
  by_cases same : entry.1 = key <;> simp [find?, same]

theorem mem_of_find? {entries : List (String × α)} (found : find? key entries = some value) :
    (key, value) ∈ entries := by
  obtain ⟨entry, at', rfl⟩ := Option.map_eq_some_iff.mp found
  have same : entry.1 = key := by simpa using List.find?_some at'
  rw [← same]
  exact List.mem_of_find?_eq_some at'

theorem find?_of_mem {entries : List (String × α)} (sorted : Sorted entries)
    (member : (key, value) ∈ entries) : find? key entries = some value := by
  induction entries with
  | nil => cases member
  | cons entry rest ih =>
    have above := (List.pairwise_cons.mp sorted).1
    rw [find?_cons]
    rcases List.mem_cons.mp member with rfl | later
    · simp
    · have below : entry.1 < key := above _ later
      have other : entry.1 ≠ key := fun same => String.lt_irrefl _ (same ▸ below)
      rw [if_neg other]
      exact ih sorted.tail later

theorem find?_eq_some_iff {entries : List (String × α)} (sorted : Sorted entries) :
    find? key entries = some value ↔ (key, value) ∈ entries :=
  ⟨mem_of_find?, find?_of_mem sorted⟩

theorem find?_eq_none_of_above {entries : List (String × α)}
    (above : ∀ entry ∈ entries, key < entry.1) : find? key entries = none := by
  cases found : find? key entries with
  | none => rfl
  | some value => exact absurd (above _ (mem_of_find? found)) (String.lt_irrefl key)

/-- The least key of either list is found in the other one, so the lists begin alike. -/
theorem eq_of_find?_eq {first second : List (String × α)} (left : Sorted first)
    (right : Sorted second) (same : ∀ key, find? key first = find? key second) :
    first = second := by
  induction first generalizing second with
  | nil =>
    cases second with
    | nil => rfl
    | cons entry rest => simpa [find?] using same entry.1
  | cons entry rest ih =>
    cases second with
    | nil => simpa [find?] using same entry.1
    | cons other others =>
      have aboveEntry := (List.pairwise_cons.mp left).1
      have aboveOther := (List.pairwise_cons.mp right).1
      have inOther : entry ∈ other :: others := by
        apply mem_of_find?
        rw [← same, find?_cons, if_pos rfl]
      have inEntry : other ∈ entry :: rest := by
        apply mem_of_find?
        rw [same, find?_cons, if_pos rfl]
      have head : entry = other := by
        rcases List.mem_cons.mp inOther with equal | later
        · exact equal
        rcases List.mem_cons.mp inEntry with equal | earlier
        · exact equal.symm
        exact absurd (String.lt_trans (aboveEntry _ earlier) (aboveOther _ later))
          (String.lt_irrefl _)
      subst head
      congr 1
      apply ih left.tail right.tail
      intro key
      by_cases here : entry.1 = key
      · rw [find?_eq_none_of_above (here ▸ aboveEntry),
          find?_eq_none_of_above (here ▸ aboveOther)]
      · have step := same key
        rwa [find?_cons, find?_cons, if_neg here, if_neg here] at step

theorem insert_of_above {entries : List (String × α)}
    (below : ∀ entry ∈ entries, entry.1 < key) :
    insert key value entries = entries ++ [(key, value)] := by
  induction entries with
  | nil => rfl
  | cons entry rest ih =>
    have less : entry.1 < key := below entry List.mem_cons_self
    have notLess : ¬ key < entry.1 := fun h => String.lt_irrefl _ (String.lt_trans less h)
    have other : key ≠ entry.1 := fun same => String.lt_irrefl _ (same ▸ less)
    simp only [insert, if_neg notLess, if_neg other, List.cons_append]
    rw [ih fun e member => below e (List.mem_cons_of_mem _ member)]

/-- Inserting in increasing order appends. -/
theorem ofList_of_sorted {entries : List (String × α)} (sorted : Sorted entries) :
    ofList entries = entries := by
  suffices ∀ before, Sorted (before ++ entries) →
      entries.foldl (fun built pair => insert pair.1 pair.2 built) before = before ++ entries from
    this [] sorted
  clear sorted
  induction entries with
  | nil => simp
  | cons entry rest ih =>
    intro before sorted
    have below : ∀ e ∈ before, e.1 < entry.1 := fun e member =>
      (List.pairwise_append.mp sorted).2.2 e member entry List.mem_cons_self
    rw [List.foldl_cons, insert_of_above below]
    simpa using ih (before ++ [entry]) (by simpa using sorted)

end Entries

namespace Dict

variable {dict first second : Dict α}

theorem get?_eq_some_iff : dict.get? key = some value ↔ (key, value) ∈ dict.entries :=
  Entries.find?_eq_some_iff dict.sorted

/-- A map is determined by its look-ups. -/
theorem ext_get? (same : ∀ key, first.get? key = second.get? key) : first = second := by
  have entries := Entries.eq_of_find?_eq first.sorted second.sorted same
  cases first
  cases second
  cases entries
  rfl

theorem mem_keys_iff : key ∈ dict.keys ↔ ∃ value, dict.get? key = some value := by
  simp [keys, get?_eq_some_iff]

theorem nodup_keys (dict : Dict α) : dict.keys.Nodup := by
  apply List.pairwise_map.mpr
  refine dict.sorted.imp ?_
  intro first second below same
  exact String.lt_irrefl second.1 (same ▸ below)

theorem ofList_entries (dict : Dict α) : ofList dict.entries = dict := by
  have same := Entries.ofList_of_sorted dict.sorted
  cases dict
  simpa [ofList] using same

end Dict

end Colorization
