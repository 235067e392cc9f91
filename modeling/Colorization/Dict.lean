/-! Finite maps with text keys, kept as lists in strictly increasing key order.
One map has one list, so equality of maps is equality of lists. Keys are ordered
by code points, which is also the order of their UTF-8 bytes. -/
namespace Colorization

namespace Entries

/-- Sets the value of `key`, keeping the order; an earlier value is replaced. -/
def insert (key : String) (value : α) : List (String × α) → List (String × α)
  | [] => [(key, value)]
  | entry :: rest =>
    if key < entry.1 then (key, value) :: entry :: rest
    else if key = entry.1 then (key, value) :: rest
    else entry :: insert key value rest

def Sorted (entries : List (String × α)) : Prop :=
  entries.Pairwise fun a b => a.1 < b.1

theorem fst_mem_insert {key : String} {value : α} {entries : List (String × α)}
    {entry : String × α} (h : entry ∈ insert key value entries) :
    entry = (key, value) ∨ entry ∈ entries := by
  induction entries with
  | nil => simpa [insert] using h
  | cons head rest ih =>
    simp only [insert] at h
    split at h
    · simpa using h
    · split at h
      · rcases List.mem_cons.mp h with h | h
        · exact .inl h
        · exact .inr (List.mem_cons_of_mem _ h)
      · rcases List.mem_cons.mp h with h | h
        · exact .inr (h ▸ List.mem_cons_self)
        · rcases ih h with h | h
          · exact .inl h
          · exact .inr (List.mem_cons_of_mem _ h)

theorem sorted_insert {key : String} {value : α} {entries : List (String × α)}
    (h : Sorted entries) : Sorted (insert key value entries) := by
  induction entries with
  | nil => simp [insert, Sorted]
  | cons head rest ih =>
    have tail : Sorted rest := h.tail
    have above : ∀ e ∈ rest, head.1 < e.1 := (List.pairwise_cons.mp h).1
    simp only [insert]
    split
    next below =>
      refine List.pairwise_cons.mpr ⟨?_, h⟩
      intro e he
      rcases List.mem_cons.mp he with he | he
      · exact he ▸ below
      · exact String.lt_trans below (above e he)
    next notBelow =>
      split
      next same => exact List.pairwise_cons.mpr ⟨fun e he => same ▸ above e he, tail⟩
      next other =>
        refine List.pairwise_cons.mpr ⟨?_, ih tail⟩
        intro e he
        rcases fst_mem_insert he with he | he
        · have le : head.1 ≤ key := String.not_lt.mp notBelow
          have : head.1 < key := by
            apply String.not_le.mp
            intro ge
            exact other (String.le_antisymm ge le)
          exact he ▸ this
        · exact above e he

/-- A later pair replaces an earlier one of the same key. -/
def ofList (pairs : List (String × α)) : List (String × α) :=
  pairs.foldl (fun entries pair => insert pair.1 pair.2 entries) []

theorem sorted_ofList (pairs : List (String × α)) : Sorted (ofList pairs) := by
  suffices ∀ entries, Sorted entries →
      Sorted (pairs.foldl (fun entries pair => insert pair.1 pair.2 entries) entries) from
    this [] List.Pairwise.nil
  induction pairs with
  | nil => exact fun _ h => h
  | cons pair rest ih => exact fun _ h => ih _ (sorted_insert h)

def find? (key : String) (entries : List (String × α)) : Option α :=
  (entries.find? fun entry => entry.1 == key).map (·.2)

end Entries

structure Dict (α : Type) where
  entries : List (String × α)
  sorted : Entries.Sorted entries
deriving DecidableEq

namespace Dict

def empty : Dict α := ⟨[], List.Pairwise.nil⟩

instance : Inhabited (Dict α) := ⟨empty⟩

def insert (dict : Dict α) (key : String) (value : α) : Dict α :=
  ⟨Entries.insert key value dict.entries, Entries.sorted_insert dict.sorted⟩

def ofList (pairs : List (String × α)) : Dict α :=
  ⟨Entries.ofList pairs, Entries.sorted_ofList pairs⟩

def get? (dict : Dict α) (key : String) : Option α := Entries.find? key dict.entries

def keys (dict : Dict α) : List String := dict.entries.map (·.1)

def filter (keep : String → Bool) (dict : Dict α) : Dict α :=
  ⟨dict.entries.filter fun entry => keep entry.1, dict.sorted.sublist List.filter_sublist⟩

end Dict

end Colorization
