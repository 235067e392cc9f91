import Colorization.FileSystem.Setting
import Colorization.Proofs.FileSystem.Directories
import Colorization.Proofs.FileSystem.Temporary

/-! A file that takes the place of what a path ends with. The path leads to it afterwards,
except where the way to it went through the link that it replaced. -/
namespace Colorization.FileSystem

/-- The file system with the directories above a path. -/
def prepared (files : FileSystem) (path : Path) : FileSystem :=
  (files.makeDirectories path.directory).2

/-- There is a new file in the place of the path's entry, which was no directory. -/
def Replaced (before after : FileSystem) (path : Path) (bytes : ByteArray) : Prop :=
  ∃ place mode, before.entry? path = .ok (some ⟨place, false⟩) ∧
    (∀ mode', before.node? place ≠ some (.directory mode')) ∧
    after = before.set place (.file mode (.ofBytes bytes))

/-- A link is at the path's entry, and without the link the path would not end there. -/
def RunsThroughItself (files : FileSystem) (path : Path) : Prop :=
  ∃ place target, files.entry? path = .ok (some ⟨place, false⟩) ∧
    files.node? place = some (.link target) ∧
    FileSystem.entry? (files.erase place) path ≠ .ok (some ⟨place, false⟩)

theorem read_eq_ok_iff {files : FileSystem} {path : Path} {bytes : ByteArray} :
    files.read path = .ok bytes ↔ ∃ location node, files.find path = .ok (location, node) ∧
      (∀ mode, node ≠ .directory mode) ∧
      bytes = (match node with | .file _ content => content.bytes | _ => .empty) := by
  rw [read, bind_eq_ok_iff]
  constructor
  · rintro ⟨⟨location, node⟩, found, rest⟩
    cases node with
    | directory mode => cases rest
    | file mode content => cases rest; exact ⟨_, _, found, nofun, rfl⟩
    | link target => cases rest; exact ⟨_, _, found, nofun, rfl⟩
    | device => cases rest; exact ⟨_, _, found, nofun, rfl⟩
  · rintro ⟨location, node, found, notFolder, rfl⟩
    refine ⟨(location, node), found, ?_⟩
    cases node with
    | directory mode => exact absurd rfl (notFolder mode)
    | file | link | device => rfl

/-- What is read is told by what is found. -/
theorem read_of_find {before after : FileSystem} {path : Path} {bytes : ByteArray}
    (found : ∀ place, before.find path = .ok place → after.find path = .ok place)
    (wasRead : before.read path = .ok bytes) : after.read path = .ok bytes := by
  obtain ⟨location, node, there, notFolder, same⟩ := read_eq_ok_iff.mp wasRead
  exact read_eq_ok_iff.mpr ⟨location, node, found _ there, notFolder, same⟩

theorem read_of_extends {before after : FileSystem} {path : Path} {bytes : ByteArray}
    (extends' : Extends before after) (wasRead : before.read path = .ok bytes) :
    after.read path = .ok bytes :=
  read_of_find (fun _ found => find_of_extends extends' found) wasRead

/-- Behind a directory slashes change nothing. -/
theorem Leads.blanks {files : FileSystem} (folder : files.node? location = some (.directory mode))
    {segments : List Segment} (empty : ∀ segment ∈ segments, segment = []) :
    Leads files 0 location segments location (.directory mode) := by
  induction segments with
  | nil => exact .here folder
  | cons segment rest ih =>
    have first : segment = [] := empty segment List.mem_cons_self
    exact .stay folder (.inl first) (ih fun other member => empty other (List.mem_cons_of_mem _ member))

section

variable {files before after : FileSystem} {path : Path} {place : Location}

/-- A walk that does not end in a directory ends with the entry, or with the link there. -/
theorem blind_of_find (found : files.find path = .ok (location, node))
    (notFolder : ∀ mode, node ≠ .directory mode)
    (entered : files.entry? path = .ok (some ⟨place, slash⟩)) : files.Blind place := by
  obtain ⟨-, used, -, leads⟩ := find_eq_ok_iff.mp found
  obtain ⟨-, folder, name, named, ⟨above, blanks, _, _, text, empty, -, -, toFolder⟩, rfl⟩ :=
    entry?_eq_ok_iff.mp entered
  rw [text] at leads
  obtain ⟨_, _, middle, _, -, toMiddle, onward⟩ := leads.split
  obtain ⟨rfl, -⟩ := toMiddle.unique toFolder
  have stuck : ∀ {used'} {start : Location}, Leads files used' start blanks location node →
      ∀ mode, files.node? start ≠ some (.directory mode) := by
    intro _ start rest mode isFolder
    exact notFolder mode (rest.unique (Leads.blanks isFolder empty)).2
  cases onward with
  | stay _ blank => exact absurd blank (by simp [named.notEmpty, named.notHere])
  | up => exact absurd rfl named.notUp
  | down _ _ isThere notLink rest =>
    apply blind_of_not_link
    · exact stuck rest
    · exact fun target isLink => notLink target (Option.some.inj (isThere.symm.trans isLink))
  | follow _ _ isLink rest =>
    simp only [Blind, isLink, List.dropLast_concat]
    intro _ stop mode toFolder
    obtain ⟨_, _, _, _, -, toTarget, rest⟩ := rest.split
    obtain ⟨rfl, rfl⟩ := toTarget.unique toFolder
    exact stuck rest mode toFolder.found

theorem not_runsThroughItself_of_find (found : files.find path = .ok (location, node))
    (notFolder : ∀ mode, node ≠ .directory mode) : ¬ files.RunsThroughItself path := by
  rintro ⟨place, target, entered, -, lost⟩
  have blind := blind_of_find found notFolder entered
  exact lost (entry?_of_blind blind (sameBut_erase ..) entered)

/-- The path ends with its entry also where nothing is at it. -/
theorem entry?_erase_of_direct (entered : files.entry? path = .ok (some ⟨place, false⟩))
    (notFolder : ∀ mode, files.node? place ≠ some (.directory mode))
    (direct : ¬ files.RunsThroughItself path) :
    FileSystem.entry? (files.erase place) path = .ok (some ⟨place, false⟩) := by
  by_contra lost
  have blind : files.Blind place := by
    apply blind_of_not_link notFolder
    intro target isLink
    exact direct ⟨place, target, entered, isLink, lost⟩
  exact lost (entry?_of_blind blind (sameBut_erase ..) entered)

/-- A path that leads somewhere ends in a directory, whatever it ends with. -/
theorem endsIn_of_find (found : files.find path = .ok (location, node))
    (text : Path.segments path.text.toList = above ++ name :: blanks)
    (empty : ∀ blank ∈ blanks, blank = []) :
    ∃ folder, EndsIn files path folder name (decide (blanks ≠ [])) := by
  obtain ⟨-, used, bound, leads⟩ := find_eq_ok_iff.mp found
  rw [text] at leads
  obtain ⟨used₁, used₂, middle, between, rfl, toMiddle, onward⟩ := leads.split
  have isFolder : ∃ mode, files.node? middle = some (.directory mode) := by
    cases onward with
    | stay folder | up folder | down folder | follow folder => exact ⟨_, folder⟩
  obtain ⟨mode, isFolder⟩ := isFolder
  cases toMiddle.found.symm.trans isFolder
  exact ⟨middle, above, blanks, used₁, mode, text, empty, rfl, by omega, toMiddle⟩

/-- A path that does not run through its entry leads to the file that takes its place. -/
theorem find_set_of_direct (entered : files.entry? path = .ok (some ⟨place, false⟩))
    (notFolder : ∀ mode, files.node? place ≠ some (.directory mode)) (direct : ¬ files.RunsThroughItself path)
    (content : Content) (mode : Nat) :
    FileSystem.find (files.set place (.file mode content)) path = .ok (place, .file mode content) := by
  have kept := entry?_erase_of_direct entered notFolder direct
  have free : (files.erase place).node? place = none := node?_erase_self (location_ne_nil entered)
  have same : SameBut place (files.erase place) (files.set place (.file mode content)) :=
    (sameBut_erase ..).symm.trans (sameBut_set ..)
  have there : (files.set place (.file mode content)).node? place = some (.file mode content) :=
    node?_set_self (location_ne_nil entered) _
  exact find_of_entry? (entry?_of_blind (blind_of_none free) same kept) there nofun

/-- Reading the path after its entry was replaced. -/
theorem Replaced.read_iff (replaced : Replaced before after path bytes) :
    after.read path = .ok bytes ↔ ¬ before.RunsThroughItself path := by
  obtain ⟨place, mode, entered, notFolder, rfl⟩ := replaced
  have there : (before.set place (.file mode (.ofBytes bytes))).node? place =
      some (.file mode (.ofBytes bytes)) := node?_set_self (location_ne_nil entered) _
  have erased : SameBut place (before.set place (.file mode (.ofBytes bytes))) (before.erase place) :=
    (sameBut_set ..).symm.trans (sameBut_erase ..)
  constructor
  · rintro readBack ⟨place', target, entered', -, lost⟩
    cases entered.symm.trans entered'
    obtain ⟨checked, folder, name, named, ends, rfl⟩ := entry?_eq_ok_iff.mp entered
    obtain ⟨location, node, found, -, -⟩ := read_eq_ok_iff.mp readBack
    have ⟨above, blanks, _, _, text, empty, isSlash, _, _⟩ := ends
    obtain ⟨folder', ends'⟩ := endsIn_of_find found text empty
    rw [← isSlash] at ends'
    have back := ends'.of_blind (blind_of_file there) (sameBut_set ..).symm
    obtain ⟨rfl, -, -⟩ := back.unique ends named.notEmpty named.notEmpty
    have whole := entry?_eq_ok_iff.mpr ⟨checked, _, name, named, ends', rfl⟩
    exact lost (entry?_of_blind (blind_of_file there) erased whole)
  · intro direct
    have found := find_set_of_direct entered notFolder direct (.ofBytes bytes) mode
    exact read_eq_ok_iff.mpr ⟨_, _, found, nofun, (Content.bytes_ofBytes bytes).symm⟩

/-- The bytes are in the place of the path's entry, with the directories above it, and the path
leads to them unless it went through the link that was there. -/
structure Stored (before after : FileSystem) (path : Path) (bytes : ByteArray) : Prop where
  replaced : (before.prepared path).Replaced after path bytes
  readable : after.read path = .ok bytes ↔ ¬ (before.prepared path).RunsThroughItself path

theorem Replaced.stored (replaced : (before.prepared path).Replaced after path bytes) :
    Stored before after path bytes :=
  ⟨replaced, replaced.read_iff⟩

/-- The new file in the place of the path's entry has the mode. -/
def ReplacedBy (before after : FileSystem) (path : Path) (mode : Nat) (bytes : ByteArray) : Prop :=
  ∃ place, before.entry? path = .ok (some ⟨place, false⟩) ∧
    (∀ mode', before.node? place ≠ some (.directory mode')) ∧
    after = before.set place (.file mode (.ofBytes bytes))

theorem ReplacedBy.replaced (replaced : ReplacedBy before after path mode bytes) :
    Replaced before after path bytes := by
  obtain ⟨place, rest⟩ := replaced
  exact ⟨place, mode, rest⟩

/-- All is as before but for a temporary file, which has the mode and the content. -/
def Drafts (before files : FileSystem) (temporary : Path) (mode : Nat) (content : Content) : Prop :=
  ∃ location, before.node? location = none ∧ files = before.set location (.file mode content) ∧
    FileAt files temporary location mode content

/-- All is as before but for a temporary file, which has the content. -/
def Besides (before files : FileSystem) (temporary : Path) (content : Content) : Prop :=
  ∃ location mode, before.node? location = none ∧
    files = before.set location (.file mode content) ∧ FileAt files temporary location mode content

variable {temporary : Path} {content : Content}

theorem Drafts.besides (drafts : Drafts before files temporary mode content) :
    Besides before files temporary content := by
  obtain ⟨location, rest⟩ := drafts
  exact ⟨location, mode, rest⟩

theorem Besides.drafts (besides : Besides before files temporary content) :
    ∃ mode, Drafts before files temporary mode content := by
  obtain ⟨location, mode, rest⟩ := besides
  exact ⟨mode, location, rest⟩

theorem drafts_createTemporary {directory : Path}
    (created : before.createTemporary directory = .ok (temporary, files)) :
    Drafts before files temporary fileMode (.ofBytes .empty) := by
  obtain ⟨location, free, -, made, file⟩ := createTemporary_eq_ok created
  exact ⟨location, free, made, file⟩

theorem Drafts.setMode (drafts : Drafts before files temporary mode content)
    (changed : files.setMode temporary mode' = .ok after) : Drafts before after temporary mode' content := by
  obtain ⟨location, free, rfl, file⟩ := drafts
  cases (file.setMode mode').symm.trans changed
  exact ⟨location, free, set_set .., file.set mode' content⟩

theorem Drafts.overwrite (drafts : Drafts before files temporary mode content)
    (filled : files.overwrite temporary content' = .ok after) : Drafts before after temporary mode content' := by
  obtain ⟨location, free, rfl, file⟩ := drafts
  cases (file.overwrite content').symm.trans filled
  exact ⟨location, free, set_set .., file.set mode content'⟩

theorem Besides.setMode (besides : Besides before files temporary content)
    (changed : files.setMode temporary mode = .ok after) : Besides before after temporary content := by
  obtain ⟨mode', drafts⟩ := besides.drafts
  exact (drafts.setMode changed).besides

theorem Besides.overwrite (besides : Besides before files temporary content)
    (filled : files.overwrite temporary content' = .ok after) : Besides before after temporary content' := by
  obtain ⟨mode, drafts⟩ := besides.drafts
  exact (drafts.overwrite filled).besides

/-- The entry that is replaced is not the temporary file's own: that one is gone by then, and
no way to the path's directory goes through it. -/
theorem Drafts.rename (drafts : Drafts before files temporary mode (.ofBytes bytes))
    (renamed : files.rename temporary path = .ok after) : ReplacedBy before after path mode bytes := by
  obtain ⟨location, free, rfl, file⟩ := drafts
  obtain ⟨place, entered, notFolder, rfl⟩ := file.rename renamed
  have notRoot := location_ne_nil file.entered
  refine ⟨place, ?_, fun mode' isFolder => ?_, ?_⟩
  · exact entry?_of_blind (blind_of_file file.there) (sameBut_set ..).symm entered
  · have differs : place ≠ location := by
      rintro rfl
      rw [free] at isFolder
      cases isFolder
    exact notFolder mode' (by rw [node?_set_of_ne differs, isFolder])
  · rw [erase_set free notRoot]

end

end Colorization.FileSystem
