import Colorization.FileSystem.Setting
import Colorization.Proofs.Path.Components
import Mathlib.Data.List.Nodup

/-! File systems as trees: what is there is there once, under a name, in a directory. -/
namespace Colorization.FileSystem

/-- What is there is in a directory. -/
def Rooted (files : FileSystem) : Prop :=
  ∀ location node, files.node? location = some node → location ≠ [] →
    ∃ mode, files.node? location.dropLast = some (.directory mode)

/-- What is above a directory is one. -/
def Nested (files : FileSystem) : Prop :=
  ∀ location mode, files.node? location = some (.directory mode) → location ≠ [] →
    ∃ mode, files.node? location.dropLast = some (.directory mode)

theorem Rooted.nested {files : FileSystem} (rooted : files.Rooted) : files.Nested :=
  fun location _ isFolder => rooted location _ isFolder

/-- And the root is above itself. -/
theorem Nested.directory_dropLast {files : FileSystem} (nested : files.Nested)
    (inside : files.node? location = some (.directory mode)) :
    ∃ mode, files.node? location.dropLast = some (.directory mode) := by
  by_cases root : location = []
  · exact ⟨_, by rw [root]; rfl⟩
  · exact nested location mode inside root

/-- What is there is there once, under names. -/
structure Tidy (files : FileSystem) : Prop where
  once : (files.nodes.map (·.1)).Nodup
  plain : ∀ entry ∈ files.nodes, ∀ name ∈ entry.1, Path.Plain name.toList

structure IsTree (files : FileSystem) : Prop where
  once : (files.nodes.map (·.1)).Nodup
  plain : ∀ entry ∈ files.nodes, ∀ name ∈ entry.1, Path.Plain name.toList
  rooted : files.Rooted

theorem IsTree.tidy {files : FileSystem} (tree : files.IsTree) : files.Tidy := ⟨tree.once, tree.plain⟩

theorem mem_of_node? {files : FileSystem} (there : files.node? location = some node)
    (notRoot : location ≠ []) : ∃ entry ∈ files.nodes, entry.1 = location := by
  rw [node?, if_neg notRoot] at there
  obtain ⟨entry, found, -⟩ := Option.map_eq_some_iff.mp there
  exact ⟨entry, List.mem_of_find?_eq_some found, by simpa using List.find?_some found⟩

/-- A tree is recognised by its nodes. -/
theorem isTree_of_nodes {files : FileSystem} (once : (files.nodes.map (·.1)).Nodup)
    (plain : ∀ entry ∈ files.nodes, ∀ name ∈ entry.1, Path.Plain name.toList)
    (rooted : (files.nodes.all fun entry =>
      match files.node? entry.1.dropLast with
      | some (.directory _) => true
      | _ => false) = true) : files.IsTree := by
  refine ⟨once, plain, fun location node there notRoot => ?_⟩
  obtain ⟨entry, member, rfl⟩ := mem_of_node? there notRoot
  have inside := List.all_eq_true.mp rooted entry member
  split at inside
  next mode above => exact ⟨mode, above⟩
  next => cases inside

theorem stat_of_find_directory {files : FileSystem} {path : Path} {mode : Nat}
    (found : files.find path = .ok (location, .directory mode)) :
    files.stat path = .ok ⟨.directory, mode, 0⟩ := by
  rw [stat, found]
  rfl

theorem list_of_find {files : FileSystem} {path : Path} {mode : Nat}
    (found : files.find path = .ok (location, .directory mode)) :
    files.list path = .ok (files.names location) := by
  rw [list, found]
  rfl

theorem names_eq (files : FileSystem) (location : Location) :
    files.names location = (files.nodes.map (·.1)).filterMap fun other =>
      if other.dropLast = location then other.getLast? else none := by
  rw [names, List.filterMap_map]
  rfl

theorem mem_names {files : FileSystem} (member : name ∈ files.names location) :
    ∃ entry ∈ files.nodes, entry.1 = location ++ [name] := by
  obtain ⟨entry, inside, isName⟩ := List.mem_filterMap.mp member
  split at isName
  next within =>
    obtain ⟨init, whole⟩ := List.getLast?_eq_some_iff.mp isName
    refine ⟨entry, inside, ?_⟩
    rw [← within, whole, List.dropLast_concat]
  next => cases isName

namespace Tidy

variable {files : FileSystem}

theorem nodup_names (tidy : files.Tidy) (location : Location) : (files.names location).Nodup := by
  rw [names_eq]
  refine List.Nodup.filterMap (fun one other name isName isName' => ?_) tidy.once
  simp only [Option.mem_def] at isName isName'
  split at isName
  next within =>
    split at isName'
    next within' =>
      obtain ⟨init, rfl⟩ := List.getLast?_eq_some_iff.mp isName
      obtain ⟨init', rfl⟩ := List.getLast?_eq_some_iff.mp isName'
      rw [List.dropLast_concat] at within within'
      rw [within, within']
    next => cases isName'
  next => cases isName

theorem plain_of_mem_names (tidy : files.Tidy) (member : name ∈ files.names location) :
    Path.Plain name.toList := by
  obtain ⟨entry, inside, whole⟩ := mem_names member
  exact tidy.plain entry inside name (by simp [whole])

end Tidy

end Colorization.FileSystem
