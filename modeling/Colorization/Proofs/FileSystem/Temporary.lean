import Colorization.FileSystem.Requests
import Colorization.Proofs.Except
import Colorization.Proofs.FileSystem.Change
import Colorization.Proofs.Path
import Mathlib.Data.List.Nodup
import Mathlib.Data.List.Perm.Subperm

/-! Temporary files: one is made under a name that is free in its directory, and until it is
renamed the requests that name its path change nothing else. -/
namespace Colorization.FileSystem

theorem temporaryName_eq (n : Nat) :
    temporaryName n = String.ofList (".colorsnap-".toList ++ Nat.toDigits 10 n) := by
  simp only [temporaryName, String.ofList_append, String.ofList_toList]
  rfl

theorem temporaryName_injective (same : temporaryName n = temporaryName m) : n = m := by
  simp only [temporaryName_eq, String.ofList_inj, List.append_cancel_left_eq] at same
  rw [← Nat.ofDigitChars_ten_toDigits (n := n), same, Nat.ofDigitChars_ten_toDigits]

theorem not_mem_temporaryName (n : Nat) (other : c ∉ ".colorsnap-".toList) (noDigit : c.isDigit = false) :
    c ∉ ".colorsnap-".toList ++ Nat.toDigits 10 n := by
  intro member
  rcases List.mem_append.mp member with inPrefix | inDigits
  · exact other inPrefix
  · rw [Nat.isDigit_of_mem_toDigits (by decide) (by decide) inDigits] at noDigit
    cases noDigit

theorem slash_not_mem_temporaryName (n : Nat) :
    '/' ∉ ".colorsnap-".toList ++ Nat.toDigits 10 n :=
  not_mem_temporaryName n (by decide) (by decide)

/-- There are more candidates than nodes, so one of them is free. -/
theorem exists_free (files : FileSystem) (folder : Location) :
    ∃ n ∈ List.range (files.nodes.length + 1),
      (files.node? (folder ++ [temporaryName n])).isNone = true := by
  by_contra taken
  have subset : (List.range (files.nodes.length + 1)).map (fun n => folder ++ [temporaryName n]) ⊆
      files.nodes.map (·.1) := by
    intro location member
    obtain ⟨n, inRange, rfl⟩ := List.mem_map.mp member
    have there : files.node? (folder ++ [temporaryName n]) ≠ none := by
      intro free
      exact taken ⟨n, inRange, by rw [free]; rfl⟩
    simp only [node?, List.append_ne_nil_of_right_ne_nil, ne_eq, List.cons_ne_self, not_false_eq_true,
      if_false, Option.map_eq_none_iff, List.find?_eq_none] at there
    simpa [eq_comm] using there
  have distinct : ((List.range (files.nodes.length + 1)).map
      (fun n => folder ++ [temporaryName n])).Nodup := by
    apply List.Nodup.map _ List.nodup_range
    intro n m same
    exact temporaryName_injective (by simpa using same)
  have count := (distinct.subperm subset).length_le
  simp only [List.length_map, List.length_range] at count
  omega

theorem freeNumber_free (files : FileSystem) (folder : Location) :
    files.node? (folder ++ [temporaryName (files.freeNumber folder)]) = none := by
  obtain ⟨n, inRange, free⟩ := exists_free files folder
  cases chosen : (List.range (files.nodes.length + 1)).find? fun n =>
      (files.node? (folder ++ [temporaryName n])).isNone with
  | none => exact absurd free (List.find?_eq_none.mp chosen n inRange)
  | some number =>
    rw [freeNumber, chosen]
    have free := List.find?_some chosen
    simpa using free

theorem set_set (files : FileSystem) (location : Location) (first second : Node) :
    (files.set location first).set location second = files.set location second := by
  simp [set, List.filter_filter]

/-- What is made at a free location and erased again leaves no trace. -/
theorem erase_set {files : FileSystem} (free : files.node? location = none)
    (notRoot : location ≠ []) (node : Node) : (files.set location node).erase location = files := by
  have absent : ∀ entry ∈ files.nodes, entry.1 ≠ location := by
    simpa [node?, notRoot] using free
  have kept : (files.nodes.filter fun entry => entry.1 ≠ location) = files.nodes :=
    List.filter_eq_self.mpr fun entry member => by simpa using absent entry member
  cases files
  simpa [erase, set, List.filter_filter] using kept

/-- A path that ends with its own name, where a regular file is. -/
structure FileAt (files : FileSystem) (path : Path) (location : Location) (mode : Nat)
    (content : Content) : Prop where
  entered : files.entry? path = .ok (some ⟨location, false⟩)
  there : files.node? location = some (.file mode content)

namespace FileAt

variable {files : FileSystem} {path : Path} {location : Location} {mode : Nat} {content : Content}

theorem find (file : FileAt files path location mode content) :
    files.find path = .ok (location, .file mode content) :=
  find_of_entry? file.entered file.there nofun

theorem set (file : FileAt files path location mode content) (mode' : Nat) (content' : Content) :
    FileAt (files.set location (.file mode' content')) path location mode' content' where
  entered := entry?_of_blind (blind_of_file file.there) (sameBut_set ..) file.entered
  there := node?_set_self (location_ne_nil file.entered) _

theorem setMode (file : FileAt files path location mode content) (mode' : Nat) :
    files.setMode path mode' = .ok (files.set location (.file mode' content)) := by
  simp [FileSystem.setMode, file.find, bind, Except.bind, pure, Except.pure]

theorem overwrite (file : FileAt files path location mode content) (content' : Content) :
    files.overwrite path content' = .ok (files.set location (.file mode content')) := by
  simp [FileSystem.overwrite, file.find, bind, Except.bind, pure, Except.pure]

theorem remove (file : FileAt files path location mode content) : files.remove path = .ok (files.erase location) := by
  simp [FileSystem.remove, file.entered, file.there, bind, Except.bind, pure, Except.pure]

/-- Renaming takes the place of any entry but a directory. -/
theorem rename (file : FileAt files path location mode content)
    (renamed : files.rename path target = .ok after) :
    ∃ place, files.entry? target = .ok (some ⟨place, false⟩) ∧
      (∀ mode', files.node? place ≠ some (.directory mode')) ∧
      after = (files.erase location).set place (.file mode content) := by
  obtain ⟨old, entered, rest⟩ := bind_eq_ok_iff.mp renamed
  cases file.entered.symm.trans entered
  obtain ⟨new, toNew, rest⟩ := bind_eq_ok_iff.mp rest
  have toNew := mapError_eq_ok_iff.mp toNew
  cases new with
  | none => cases rest
  | some entry =>
    obtain ⟨place, slash⟩ := entry
    simp only [file.there] at rest
    cases slash with
    | true => cases rest
    | false =>
      simp only [Bool.false_eq_true, if_false] at rest
      split at rest
      · cases rest
      next notFolder =>
        cases rest
        exact ⟨place, toNew, notFolder, rfl⟩

end FileAt

theorem endsIn_join {files : FileSystem} {directory : Path}
    (found : files.find directory = .ok (folder, .directory mode)) {name : Segment}
    (plain : '/' ∉ name) : EndsIn files (directory.join ⟨String.ofList name⟩) folder name false := by
  obtain ⟨checked, used, bound, leads⟩ := find_eq_ok_iff.mp found
  have notEmpty : directory.text ≠ "" := by
    intro empty
    simp [check, empty] at checked
  have origin : files.start (directory.join ⟨String.ofList name⟩) = files.start directory := by
    simp [start, Path.isAbsolute_join directory plain]
  rcases Path.segments_join plain notEmpty with ⟨before, slash, text⟩ | text
  · rw [slash] at leads
    obtain ⟨used₁, used₂, middle, between, rfl, toMiddle, last⟩ := leads.split
    cases last with
    | stay inMiddle _ rest =>
      cases rest with
      | here there =>
        cases toMiddle.found.symm.trans there
        exact ⟨before, [], used₁, mode, text, by simp, rfl, bound, origin ▸ toMiddle⟩
    | down _ named => exact absurd rfl named.notEmpty
    | follow _ named => exact absurd rfl named.notEmpty
  · exact ⟨_, [], used, mode, text, by simp, rfl, bound, origin ▸ leads⟩

/-- A path has one last name, and it ends in one directory where walks to directories do. -/
theorem EndsIn.unique_of_ways {files files' : FileSystem} (ends : EndsIn files path folder name slash)
    (other : EndsIn files' path folder' name' slash') (notEmpty : name ≠ []) (notEmpty' : name' ≠ [])
    (ways : ∀ {used used' segments mode mode'},
      Leads files used (files.start path) segments folder (.directory mode) →
      Leads files' used' (files'.start path) segments folder' (.directory mode') → folder = folder') :
    folder = folder' ∧ name = name' ∧ slash = slash' := by
  obtain ⟨before, blanks, used, mode, text, empty, rfl, -, leads⟩ := ends
  obtain ⟨before', blanks', used', mode', text', empty', rfl, -, leads'⟩ := other
  have names := dropWhile_reverse_append before notEmpty empty
  rw [← text, text', dropWhile_reverse_append before' notEmpty' empty', List.cons.injEq,
    List.reverse_inj] at names
  obtain ⟨rfl, rfl⟩ := names
  have rest : blanks = blanks' := by simpa using text.symm.trans text'
  exact ⟨ways leads leads', rfl, by rw [rest]⟩

theorem EndsIn.unique {files : FileSystem} (ends : EndsIn files path folder name slash)
    (other : EndsIn files path folder' name' slash') (notEmpty : name ≠ []) (notEmpty' : name' ≠ []) :
    folder = folder' ∧ name = name' ∧ slash = slash' :=
  ends.unique_of_ways other notEmpty notEmpty' fun leads leads' => (leads.unique leads').1

/-- A new temporary file is empty and stands where nothing was. -/
theorem createTemporary_eq_ok {files after : FileSystem} {directory temporary : Path}
    (created : files.createTemporary directory = .ok (temporary, after)) :
    ∃ location, files.node? location = none ∧ location ≠ [] ∧
      after = files.set location (.file fileMode (.ofBytes .empty)) ∧
      FileAt after temporary location fileMode (.ofBytes .empty) := by
  obtain ⟨⟨folder, node⟩, found, rest⟩ := bind_eq_ok_iff.mp created
  cases node with
  | file | link | device => cases rest
  | directory mode =>
    obtain ⟨entry, entered, rest⟩ := bind_eq_ok_iff.mp rest
    cases entry with
    | none => cases rest
    | some entry =>
      cases rest
      obtain ⟨location, slash⟩ := entry
      have free := freeNumber_free files folder
      generalize files.freeNumber folder = n at *
      have name := temporaryName_eq n
      have ends := endsIn_join found (slash_not_mem_temporaryName n)
      rw [← name] at ends
      obtain ⟨checked, folder', name', named, ends', rfl⟩ := entry?_eq_ok_iff.mp entered
      obtain ⟨rfl, rfl, rfl⟩ := ends.unique ends' (by simp) named.notEmpty
      rw [← name] at entered ⊢
      refine ⟨_, free, by simp, rfl, ?_, node?_set_self (by simp) _⟩
      exact entry?_of_blind (blind_of_none free) (sameBut_set ..) entered

end Colorization.FileSystem
