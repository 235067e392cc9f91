import Colorization.Proofs.FileSystem.Answers

/-! One path that several calls write to. Each of them has a temporary file of its own beside the
path's entry, and what is at the entry is what was there before all of them, or what the last
of them has put there. -/
namespace Colorization.FileSystem

/-- How far a call is. -/
inductive Progress where
  | outside
  /-- The temporary file is its own. -/
  | drafting (temporary : Path)
  /-- And has all of its bytes. -/
  | drafted (temporary : Path)
  | placed
  | gone
  | seen (answer : Except SystemError ByteArray)

def Progress.temporary? : Progress → Option Path
  | .drafting temporary | .drafted temporary => some temporary
  | _ => none

/-- If there were a new temporary file in the path's directory, the path would lead to it. -/
def LeadsToTemporary (files : FileSystem) (path : Path) : Prop :=
  ∃ folder mode n mode' content, files.find path.directory = .ok (folder, .directory mode) ∧
    files.node? (folder ++ [temporaryName n]) = none ∧
    FileSystem.find (files.set (folder ++ [temporaryName n]) (.file mode' content)) path =
      .ok (folder ++ [temporaryName n], .file mode' content)

variable {ready files after : FileSystem} {path directory temporary : Path} {folder place : Location}
  {mode n : Nat} {content : Content} {name : Segment}

theorem not_leadsToTemporary_of_find (found : files.find path = .ok (location, node)) :
    ¬ files.LeadsToTemporary path := by
  rintro ⟨folder, mode, n, mode', content, -, free, leads⟩
  have kept := find_of_extends (extends_set free (.file mode' content)) found
  cases leads.symm.trans kept
  obtain ⟨-, _, -, leads⟩ := find_eq_ok_iff.mp found
  rw [leads.found] at free
  cases free

theorem temporaryPath_injective (same : temporaryPath directory n = temporaryPath directory m) :
    n = m := by
  have names : ∀ n, (temporaryPath directory n).fileName? = some (temporaryName n) := by
    intro n
    rw [temporaryPath, temporaryName_eq]
    exact Path.fileName?_join directory (plain_temporaryName n)
  apply temporaryName_injective
  apply Option.some.inj
  rw [← names, ← names, same]

/-- Where the calls write: the directory is there, and the path does not lead to a new temporary
file in it. -/
structure Site (ready : FileSystem) (path : Path) (folder : Location) (mode : Nat) : Prop where
  found : ready.find path.directory = .ok (folder, .directory mode)
  plain : ¬ ready.LeadsToTemporary path

/-- The entry is not one for a new temporary file. -/
theorem Site.place_ne (site : Site ready path folder mode)
    (entered : ready.entry? path = .ok (some ⟨place, false⟩))
    (free : ready.node? (folder ++ [temporaryName n]) = none) : place ≠ folder ++ [temporaryName n] := by
  rintro rfl
  have entered' := entry?_of_blind (blind_of_none free)
    (sameBut_set ready _ (.file fileMode (.ofBytes .empty))) entered
  exact site.plain ⟨folder, mode, n, _, _, site.found, free,
    find_of_entry? entered' (node?_set_self (by simp) _) nofun⟩

/-- A temporary file where nothing would be without the calls. -/
structure Held (ready files : FileSystem) (directory : Path) (folder : Location) (n mode : Nat)
    (content : Content) : Prop where
  nameable : Nameable directory n
  free : ready.node? (folder ++ [temporaryName n]) = none
  there : files.node? (folder ++ [temporaryName n]) = some (.file mode content)

/-- What there is while the calls are at their stages: the temporary files, the bytes of the call
that was the last to put its own in place, and what would be there without the calls. -/
structure Contested (ready : FileSystem) (path : Path) (folder : Location)
    (drafts : Nat → Option ByteArray) (stages : Nat → Progress) (placed : List Nat) (files : FileSystem) :
    Prop where
  working : files.working = ready.working
  kept : ∀ location node, ready.node? location = some node → files.node? location = some node ∨
    placed ≠ [] ∧ ready.entry? path = .ok (some ⟨location, false⟩)
  held : ∀ i temporary, (stages i).temporary? = some temporary → ∃ n mode content,
    temporary = temporaryPath path.directory n ∧ Held ready files path.directory folder n mode content ∧
      (stages i = .drafted temporary → ∃ bytes, drafts i = some bytes ∧ content = .ofBytes bytes)
  distinct : ∀ i j temporary, (stages i).temporary? = some temporary →
    (stages j).temporary? = some temporary → i = j
  exact : placed = [] → ∀ location node, files.node? location = some node →
    ready.node? location = some node ∨ ∃ i n, location = folder ++ [temporaryName n] ∧
      (stages i).temporary? = some (temporaryPath path.directory n)
  target : ∀ i, placed.getLast? = some i → ∃ place mode bytes, drafts i = some bytes ∧
    ready.entry? path = .ok (some ⟨place, false⟩) ∧
    (∀ mode', ready.node? place ≠ some (.directory mode')) ∧
    files.node? place = some (.file mode (.ofBytes bytes))

variable {drafts : Nat → Option ByteArray} {stages : Nat → Progress} {placed : List Nat} {stage : Progress}

namespace Contested

section Ways

/-- With what was at the entry put back all that would be there is there, and the ways to directories
are what they were. -/
theorem restored (contested : Contested ready path folder drafts stages placed files) :
    ∃ back, Extends ready back ∧ ∀ {used start segments stop mode},
      Leads files used start segments stop (.directory mode) →
        Leads back used start segments stop (.directory mode) := by
  cases last : placed.getLast? with
  | none =>
    have none : placed = [] := List.getLast?_eq_none_iff.mp last
    refine ⟨files, ⟨fun location node there => ?_, contested.working⟩, id⟩
    exact (contested.kept location node there).resolve_right fun ⟨notNone, _⟩ => notNone none
  | some i =>
    obtain ⟨place, mode, bytes, -, entered, -, isFile⟩ := contested.target i last
    have notRoot := location_ne_nil entered
    have elsewhere : ∀ location node, location ≠ place → ready.node? location = some node →
        files.node? location = some node := by
      intro location node differs there
      refine (contested.kept location node there).resolve_right fun ⟨_, entered'⟩ => differs ?_
      cases entered.symm.trans entered'
      rfl
    suffices back : ∃ back, SameBut place files back ∧
        ∀ node, ready.node? place = some node → back.node? place = some node by
      obtain ⟨back, same, there⟩ := back
      refine ⟨back, ⟨fun location node was => ?_, same.working.trans contested.working⟩,
        fun leads => leads.of_blind (blind_of_file isFile) same⟩
      by_cases here : location = place
      · subst here
        exact there node was
      · rw [same.node location here]
        exact elsewhere location node here was
    cases was : ready.node? place with
    | none => exact ⟨files, ⟨fun _ _ => rfl, rfl⟩, nofun⟩
    | some node =>
      refine ⟨files.set place node, sameBut_set .., fun node' same => ?_⟩
      cases same
      exact node?_set_self notRoot _

/-- A path that ends in a directory ends in the one that it would end in. -/
theorem endsIn_eq (contested : Contested ready path folder drafts stages placed files)
    (ends : EndsIn files path' folder₁ name₁ slash₁) (ends' : EndsIn ready path' folder₂ name₂ slash₂)
    (notEmpty : name₁ ≠ []) (notEmpty' : name₂ ≠ []) :
    folder₁ = folder₂ ∧ name₁ = name₂ ∧ slash₁ = slash₂ := by
  obtain ⟨back, extends', ways⟩ := contested.restored
  have working : back.working = files.working := extends'.working.trans contested.working.symm
  exact (ends.imp working ways).unique (ends'.of_extends extends') notEmpty notEmpty'

theorem find_eq (contested : Contested ready path folder drafts stages placed files)
    (found : files.find path' = .ok (folder₁, .directory mode₁))
    (found' : ready.find path' = .ok (folder₂, .directory mode₂)) : folder₁ = folder₂ := by
  obtain ⟨back, extends', ways⟩ := contested.restored
  obtain ⟨-, _, -, leads⟩ := find_eq_ok_iff.mp found
  obtain ⟨-, _, -, leads'⟩ := find_eq_ok_iff.mp found'
  rw [start_of_working contested.working] at leads
  exact ((ways leads).unique (leads'.of_extends extends')).1

/-- What is free would be. -/
theorem free (contested : Contested ready path folder drafts stages placed files)
    (empty : files.node? location = none) : ready.node? location = none := by
  cases was : ready.node? location with
  | none => rfl
  | some node =>
    rcases contested.kept location node was with there | ⟨some, entered⟩
    · rw [empty] at there
      cases there
    · obtain ⟨i, last⟩ := Option.ne_none_iff_exists'.mp (mt List.getLast?_eq_none_iff.mp some)
      obtain ⟨place, mode, bytes, -, entered', -, isFile⟩ := contested.target i last
      cases entered.symm.trans entered'
      rw [empty] at isFile
      cases isFile

/-- A call's temporary file is known by its number. -/
theorem held_of_temporary (contested : Contested ready path folder drafts stages placed files)
    (isOwn : (stages i).temporary? = some (temporaryPath path.directory n)) :
    ∃ mode content, Held ready files path.directory folder n mode content := by
  obtain ⟨m, mode, content, same, held, -⟩ := contested.held i _ isOwn
  obtain rfl := temporaryPath_injective same
  exact ⟨mode, content, held⟩

/-- Before anything is put in its place all that would be there is there. -/
theorem extends_of_nil (contested : Contested ready path folder drafts stages [] files) :
    Extends ready files :=
  ⟨fun location node there => (contested.kept location node there).resolve_right fun ⟨notNil, _⟩ => notNil rfl,
    contested.working⟩

/-- And no directories or links are that would not be. -/
theorem firm_of_nil (contested : Contested ready path folder drafts stages [] files) :
    Firm files ready := by
  have would : ∀ location node, files.node? location = some node →
      (∀ mode content, node ≠ .file mode content) → ready.node? location = some node := by
    intro location node there notFile
    refine (contested.exact rfl location node there).resolve_right ?_
    rintro ⟨i, n, rfl, isOwn⟩
    obtain ⟨mode, content, held⟩ := contested.held_of_temporary isOwn
    exact notFile mode content (Option.some.inj (there.symm.trans held.there))
  exact ⟨fun location mode there => would location _ there nofun,
    fun location target there => would location _ there nofun, contested.working.symm⟩

end Ways

section Requests

variable {content : Content}

/-- Where the way to a temporary file is still there, it is what is found. -/
theorem fileAt_of_endsIn (contested : Contested ready path folder drafts stages placed files)
    (site : Site ready path folder mode) (held : Held ready files path.directory folder n mode' content)
    (ends : EndsIn files (temporaryPath path.directory n) folder' name slash) (notEmpty : name ≠ []) :
    FileAt files (temporaryPath path.directory n) (folder ++ [temporaryName n]) mode' content := by
  have ground := endsIn_join site.found (slash_not_mem_temporaryName n)
  have plain := plain_temporaryName n
  rw [temporaryPath, temporaryName_eq] at ends ⊢
  obtain ⟨rfl, rfl, rfl⟩ := contested.endsIn_eq ends ground notEmpty plain.notEmpty
  have nameable := held.nameable
  rw [Nameable, temporaryPath, temporaryName_eq] at nameable
  refine ⟨?_, temporaryName_eq n ▸ held.there⟩
  rw [entry?_of_endsIn ends plain, nameable.1, nameable.2]
  rfl

theorem fileAt_of_entry (contested : Contested ready path folder drafts stages placed files)
    (site : Site ready path folder mode) (held : Held ready files path.directory folder n mode' content)
    (entered : files.entry? (temporaryPath path.directory n) = .ok (some entry)) :
    FileAt files (temporaryPath path.directory n) (folder ++ [temporaryName n]) mode' content := by
  obtain ⟨-, folder', name, named, ends, -⟩ := entry?_eq_ok_iff.mp entered
  exact contested.fileAt_of_endsIn site held ends named.notEmpty

theorem fileAt_of_find (contested : Contested ready path folder drafts stages placed files)
    (site : Site ready path folder mode) (held : Held ready files path.directory folder n mode' content)
    (found : files.find (temporaryPath path.directory n) = .ok (location, node)) :
    FileAt files (temporaryPath path.directory n) (folder ++ [temporaryName n]) mode' content := by
  have ground := endsIn_join site.found (slash_not_mem_temporaryName n)
  rw [← temporaryName_eq] at ground
  obtain ⟨above, blanks, _, _, text, empty, -, -, -⟩ := ground
  obtain ⟨folder', ends⟩ := endsIn_of_find found text empty
  exact contested.fileAt_of_endsIn site held ends (plain_temporaryName n).notEmpty

/-- Before anything is put in its place the way to a temporary file is there. -/
theorem fileAt_of_nil (contested : Contested ready path folder drafts stages [] files)
    (site : Site ready path folder mode) (held : Held ready files path.directory folder n mode' content) :
    FileAt files (temporaryPath path.directory n) (folder ++ [temporaryName n]) mode' content :=
  ⟨entry?_eq_of_nameable (find_of_extends contested.extends_of_nil site.found) held.nameable, held.there⟩

end Requests

section Reading

variable {bytes : ByteArray}

/-- Before anything is in its place what is read is what was there. -/
theorem read_of_nil (contested : Contested ready path folder drafts stages [] files)
    (site : Site ready path folder mode) :
    files.read path = .ok bytes ↔ ready.read path = .ok bytes := by
  constructor
  · intro wasRead
    obtain ⟨location, node, found, notFolder, same⟩ := read_eq_ok_iff.mp wasRead
    obtain ⟨-, _, -, leads⟩ := find_eq_ok_iff.mp found
    refine read_eq_ok_iff.mpr ⟨location, node, find_of_firm contested.firm_of_nil found ?_, notFolder, same⟩
    refine (contested.exact rfl location node leads.found).resolve_right ?_
    rintro ⟨i, n, rfl, isOwn⟩
    obtain ⟨mode', content, held⟩ := contested.held_of_temporary isOwn
    cases leads.found.symm.trans held.there
    have added := extends_set held.free (.file mode' content)
    have there := find_of_firm (contested.firm_of_nil.trans added.firm) found (node?_set_self (by simp) _)
    exact site.plain ⟨folder, mode, n, mode', content, site.found, held.free, there⟩
  · exact read_of_extends contested.extends_of_nil

/-- Then it is what the last call put there. -/
theorem read_of_last (contested : Contested ready path folder drafts stages placed files)
    (last : placed.getLast? = some i) (wasRead : files.read path = .ok bytes) :
    drafts i = some bytes := by
  obtain ⟨place, mode', bytes', draft, toPlace, -, isFile⟩ := contested.target i last
  obtain ⟨checked, folder', name, named, ground, rfl⟩ := entry?_eq_ok_iff.mp toPlace
  obtain ⟨location, node, found, -, same⟩ := read_eq_ok_iff.mp wasRead
  have ⟨above, blanks, _, _, text, empty, isSlash, _, _⟩ := ground
  obtain ⟨folder'', ends⟩ := endsIn_of_find found text empty
  rw [← isSlash] at ends
  obtain ⟨rfl, -, -⟩ := contested.endsIn_eq ends ground named.notEmpty named.notEmpty
  have entered := entry?_eq_ok_iff.mpr ⟨checked, _, name, named, ends, rfl⟩
  have there := find_of_entry? entered isFile nofun
  cases found.symm.trans there
  rw [draft, same]
  simp

/-- And it is read, unless the way to it went through a link in its place. -/
theorem exists_read_of_last (contested : Contested ready path folder drafts stages placed files)
    (last : placed.getLast? = some i) (direct : ¬ ready.RunsThroughItself path) :
    ∃ bytes, drafts i = some bytes ∧ files.read path = .ok bytes := by
  obtain ⟨place, mode', bytes, draft, toPlace, notFolder, isFile⟩ := contested.target i last
  have without := entry?_erase_of_direct toPlace notFolder direct
  have extends' : Extends (ready.erase place) files := by
    refine ⟨fun location node there => ?_, contested.working⟩
    have differs : location ≠ place := by
      rintro rfl
      rw [node?_erase_self (location_ne_nil toPlace)] at there
      cases there
    rw [node?_erase_of_ne differs] at there
    refine (contested.kept location node there).resolve_right fun ⟨_, entered⟩ => differs ?_
    cases toPlace.symm.trans entered
    rfl
  obtain ⟨checked, folder', name, named, ends, rfl⟩ := entry?_eq_ok_iff.mp without
  have entered := entry?_eq_ok_iff.mpr ⟨checked, folder', name, named, ends.of_extends extends', rfl⟩
  refine ⟨bytes, draft, read_eq_ok_iff.mpr ⟨_, _, find_of_entry? entered isFile nofun, nofun, ?_⟩⟩
  simp

end Reading

end Contested

end Colorization.FileSystem
