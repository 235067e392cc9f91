import Colorization.Proofs.FileSystem.Answers
import Colorization.Proofs.FileSystem.Entrance
import Colorization.Proofs.FileSystem.Visits
import Colorization.Proofs.Update

/-! Writers that have some paths between them. Each makes a temporary file in the directory of one of
the paths and puts it in the place of that path's entry; all else that they change are directories
that were missing. So no regular file is changed but at the entries of the paths, and none is lost.
What can be left is a temporary file that is not found again: another writer has put its file in the
place of a link on the way to it. -/
namespace Colorization.FileSystem

/-- A regular file is at the location. -/
def IsFile (files : FileSystem) (location : Location) : Prop :=
  ∃ mode content, files.node? location = some (.file mode content)

instance (files : FileSystem) (location : Location) : Decidable (IsFile files location) :=
  decidable_of_iff ((match files.node? location with | some (.file ..) => true | _ => false) = true) <| by
    unfold IsFile
    split
    next mode content isFile => simp [isFile]
    next other =>
      simp only [Bool.false_eq_true, false_iff]
      rintro ⟨mode, content, isFile⟩
      exact other mode content isFile

theorem isFile_set (files : FileSystem) (notRoot : location ≠ []) (mode : Nat) (content : Content) :
    IsFile (files.set location (.file mode content)) location :=
  ⟨mode, content, node?_set_self notRoot _⟩

/-- The files before some writers, the paths that they have between them, and whether only one of
them is at work at a time. -/
structure Charter where
  files : FileSystem
  paths : Path → Prop
  alone : Prop

/-- A temporary file in the directory of a path. -/
structure Draft where
  path : Path
  folder : Location
  number : Nat

namespace Draft

def file (draft : Draft) : Path := temporaryPath draft.path.directory draft.number

def location (draft : Draft) : Location := draft.folder ++ [temporaryName draft.number]

theorem location_ne_nil (draft : Draft) : draft.location ≠ [] := List.append_ne_nil_of_right_ne_nil _ nofun

end Draft

namespace Charter

/-- One of the paths has its entry there. -/
def Claims (charter : Charter) (location : Location) : Prop :=
  ∃ path, charter.paths path ∧ charter.files.Enters path location

/-- A temporary file is at the location that cannot be found again: the way to it is through a link
where one of the paths has its entry. -/
inductive Strands (charter : Charter) : Location → Prop where
  | strands {draft : Draft} {ready : FileSystem} : Grows charter.files ready → charter.paths draft.path →
      ready.find draft.path.directory = .ok (draft.folder, .directory mode) →
      ready.node? draft.location = none → stop ∈ ready.visited draft.path.directory →
      ready.node? stop = some (.link target) → charter.Claims stop → Strands charter draft.location

/-- What the writers leave. -/
structure Observed (charter : Charter) (after : FileSystem) : Prop where
  /-- Regular files that were there are there. -/
  kept : ∀ location, charter.files.IsFile location → after.IsFile location
  /-- Those that have changed or are new are at the entries of the paths, but for temporary files that
  could not be found again. -/
  changed : ∀ location, ¬ FileKept charter.files after location → after.IsFile location ∧
    (charter.Claims location ∨ ¬ charter.alone ∧ charter.Strands location)

/-- There is what would be there without the writers, or a file of theirs. -/
def Stands (charter : Charter) (base files : FileSystem) (held : Prop) (location : Location) : Prop :=
  files.node? location = base.node? location ∨
    files.IsFile location ∧ (∀ mode, base.node? location ≠ some (.directory mode)) ∧
      (charter.Claims location ∨
        base.node? location = none ∧ (held ∨ ¬ charter.alone ∧ charter.Strands location))

/-- A writer has the temporary file. If no other is at work the way to it is open. -/
structure Holds (charter : Charter) (base files : FileSystem) (key : Nat) (draft : Draft) : Prop where
  isOwn : charter.paths draft.path
  nameable : Nameable draft.path.directory draft.number
  found : ∃ mode, base.find draft.path.directory = .ok (draft.folder, .directory mode)
  free : base.node? draft.location = none
  there : files.IsFile draft.location
  open' : charter.alone → key = 0 ∧ ∃ mode,
    files.find draft.path.directory = .ok (draft.folder, .directory mode)

/-- What is kept while the writers are at work. The base is what would be there without their files. -/
structure Kept (charter : Charter) (base : FileSystem) (hands : Nat → Option Draft) (files : FileSystem) :
    Prop where
  grows : Grows charter.files base
  nested : charter.files.Nested → base.Nested
  working : files.working = base.working
  stands : ∀ location, charter.Stands base files
    (∃ key draft, hands key = some draft ∧ draft.location = location) location
  holds : ∀ key draft, hands key = some draft → Holds charter base files key draft
  distinct : ∀ key other draft draft', hands key = some draft → hands other = some draft' →
    draft.location = draft'.location → key = other

/-- The writers keep to the charter. -/
def Followed (charter : Charter) (hands : Nat → Option Draft) (files : FileSystem) : Prop :=
  ∃ base, Kept charter base hands files

variable {charter : Charter} {base files after : FileSystem} {hands : Nat → Option Draft}
  {hand : Option Draft} {draft : Draft} {key other mode : Nat} {path temporary : Path} {location : Location}

namespace Holds

theorem entered (holds : Holds charter base files key draft) :
    base.entry? draft.file = .ok (some ⟨draft.location, false⟩) := by
  obtain ⟨mode, found⟩ := holds.found
  exact entry?_eq_of_nameable found holds.nameable

/-- A directory that is made elsewhere. -/
theorem grow {base' : FileSystem} (holds : Holds charter base files key draft)
    (bases : Extends base base') (grown : Extends files after)
    (free : base'.node? draft.location = none) : Holds charter base' after key draft := by
  obtain ⟨mode, found⟩ := holds.found
  obtain ⟨mode', content, there⟩ := holds.there
  refine ⟨holds.isOwn, holds.nameable, ⟨mode, find_of_extends bases found⟩, free,
    ⟨mode', content, grown.node _ _ there⟩, fun alone => ?_⟩
  obtain ⟨first, mode, stillFound⟩ := holds.open' alone
  exact ⟨first, mode, find_of_extends grown stillFound⟩

end Holds

namespace Kept

/-- Before the writers begin directories may have been made. -/
theorem start (branches : Branches charter.files files) : Kept charter files (fun _ => none) files :=
  ⟨branches.grows, branches.nested, rfl, fun _ => .inl rfl, nofun, nofun⟩

/-- When all are done no temporary file is held. -/
theorem observed (kept : Kept charter base (fun _ => none) files) : charter.Observed files := by
  constructor
  · rintro location ⟨mode, content, isFile⟩
    rcases kept.stands location with same | ⟨isFile, -⟩
    · exact ⟨mode, content, same.trans (kept.grows.extends.node _ _ isFile)⟩
    · exact isFile
  · intro location changed
    rcases kept.stands location with same | ⟨isFile, -, claimed | ⟨-, held | stranded⟩⟩
    · refine absurd (fun mode content => ?_) changed
      rw [same]
      exact kept.grows.fileKept location mode content
    · exact ⟨isFile, .inl claimed⟩
    · obtain ⟨key, draft, isHeld, -⟩ := held
      cases isHeld
    · exact ⟨isFile, .inr stranded⟩

/-- Directories and links are there also without the writers. -/
theorem firm (kept : Kept charter base hands files) : Firm files base := by
  have would : ∀ location node, files.node? location = some node →
      (∀ mode content, node ≠ .file mode content) → base.node? location = some node := by
    intro location node there notFile
    rcases kept.stands location with same | ⟨⟨mode, content, isFile⟩, -⟩
    · rw [← same, there]
    · exact absurd (Option.some.inj (there.symm.trans isFile)) (notFile mode content)
  exact ⟨fun location mode there => would location _ there nofun,
    fun location target there => would location _ there nofun, kept.working.symm⟩

theorem free (kept : Kept charter base hands files) (empty : files.node? location = none) :
    base.node? location = none := by
  rcases kept.stands location with same | ⟨⟨mode, content, isFile⟩, -⟩
  · rw [← same, empty]
  · rw [empty] at isFile
    cases isFile

theorem base_ne_directory (kept : Kept charter base hands files)
    (notFolder : ∀ mode, files.node? location ≠ some (.directory mode)) (mode : Nat) :
    base.node? location ≠ some (.directory mode) := by
  rcases kept.stands location with same | ⟨-, notFolder, -⟩
  · rw [← same]
    exact notFolder mode
  · exact notFolder mode

/-- The files of the writers are no directories. -/
theorem nested_files (kept : Kept charter base hands files) (nested : charter.files.Nested) : files.Nested := by
  intro location mode isFolder notRoot
  obtain ⟨mode', above⟩ := kept.nested nested location mode (kept.firm.directory _ _ isFolder) notRoot
  rcases kept.stands location.dropLast with same | ⟨-, notFolder, -⟩
  · exact ⟨mode', same.trans above⟩
  · exact absurd above (notFolder mode')

/-- No two writers have one temporary file. -/
theorem location_ne (kept : Kept charter base hands files) {draft' : Draft}
    (isHeld : hands key = some draft) (isHeld' : hands other = some draft') (differs : other ≠ key) :
    draft'.location ≠ draft.location :=
  fun together => differs (kept.distinct other key _ _ isHeld' isHeld together)

/-- Where there is nothing no writer has a temporary file. -/
theorem location_ne_of_free (kept : Kept charter base hands files) (isHeld : hands key = some draft)
    (empty : files.node? location = none) : draft.location ≠ location := by
  rintro rfl
  obtain ⟨mode, content, there⟩ := (kept.holds key draft isHeld).there
  rw [empty] at there
  cases there

/-- A directory is made where nothing was, and would be made without the files of the writers. -/
theorem makeDirectory (kept : Kept charter base hands files) (made : files.makeDirectory path = .ok after) :
    ∃ grown, Grows base grown ∧ Kept charter grown hands after := by
  obtain ⟨location, slash, entered, empty, rfl⟩ := makeDirectory_eq_ok made
  have notRoot := location_ne_nil entered
  have free := kept.free empty
  obtain ⟨mode, inside⟩ := exists_folder_of_entry? entered
  have inside := kept.firm.directory _ _ inside
  have grown : Grows base (base.set location (.directory directoryMode)) := grows_set free notRoot
  refine ⟨base.set location (.directory directoryMode), grown, kept.grows.trans grown,
    fun nested => (kept.nested nested).set_directory free inside, kept.working, fun place => ?_,
    fun key draft isHeld => ?_, kept.distinct⟩
  · by_cases here : place = location
    · subst here
      exact .inl ((node?_set_self notRoot _).trans (node?_set_self notRoot _).symm)
    · have node := (sameBut_set files location (.directory directoryMode)).node place here
      have node' := (sameBut_set base location (.directory directoryMode)).node place here
      have stands := kept.stands place
      unfold Stands IsFile at stands ⊢
      rwa [node, node']
  · have holds := kept.holds key draft isHeld
    refine holds.grow (extends_set free _) (extends_set empty _) ?_
    rw [(sameBut_set ..).node _ (kept.location_ne_of_free isHeld empty), holds.free]

theorem makeDirectories (kept : Kept charter base hands files) (path : Path) :
    ∃ grown, Grows base grown ∧ Kept charter grown hands (files.makeDirectories path).2 := by
  let holds (files : FileSystem) : Prop := ∃ grown, Grows base grown ∧ Kept charter grown hands files
  have step : ∀ {files path after}, files.makeDirectory path = .ok after → holds files → holds after := by
    rintro files path after made ⟨between, grown, kept⟩
    obtain ⟨base', more, kept⟩ := kept.makeDirectory made
    exact ⟨base', grown.trans more, kept⟩
  have start : holds files := ⟨base, .refl _, kept⟩
  exact makeDirectories_keeps step start path

/-- A writer changes what is at one location. Where another has a temporary file there, it must be left
a file. -/
theorem change (kept : Kept charter base hands files) (first : charter.alone → key = 0)
    (same : SameBut location files after)
    (was : ∀ draft, hands key = some draft → draft.location = location ∨ hand = some draft)
    (stands : charter.Stands base after (∃ draft, hand = some draft ∧ draft.location = location) location)
    (shared : ∀ other draft, other ≠ key → hands other = some draft → draft.location = location →
      after.IsFile location)
    (holds : ∀ draft, hand = some draft → Holds charter base after key draft ∧
      (hands key = some draft ∨ files.node? draft.location = none)) :
    Kept charter base (Function.update hands key hand) after := by
  have mine : Function.update hands key hand key = hand := Function.update_self ..
  have theirs : ∀ {other}, other ≠ key → Function.update hands key hand other = hands other :=
    fun differs => Function.update_of_ne differs ..
  have apart : ∀ {other draft draft'}, other ≠ key → hand = some draft → hands other = some draft' →
      draft'.location ≠ draft.location := by
    intro other draft draft' differs isHeld isHeld'
    rcases (holds draft isHeld).2 with wasHeld | empty
    · exact kept.location_ne wasHeld isHeld' differs
    · exact kept.location_ne_of_free isHeld' empty
  have sole := sole_update (fun _ held location => ∃ draft, held = some draft ∧ draft.location = location)
    (fun one other place ⟨draft, isHeld, here⟩ ⟨draft', isHeld', here'⟩ =>
      kept.distinct one other draft draft' isHeld isHeld' (here.trans here'.symm))
    (fun other differs place ⟨draft, isHeld, here⟩ ⟨draft', isHeld', here'⟩ =>
      apart differs isHeld isHeld' (here'.trans here.symm))
  refine ⟨kept.grows, kept.nested, same.working.trans kept.working, fun place => ?_, fun other draft isHeld => ?_,
    fun one other draft draft' isHeld isHeld' together =>
      sole one other _ ⟨draft, isHeld, rfl⟩ ⟨draft', isHeld', together.symm⟩⟩
  -- elsewhere the node is the same, but it is asked anew whose temporary file it is
  · by_cases here : place = location
    · subst here
      refine stands.imp_right fun ⟨isFile, notFolder, rest⟩ => ⟨isFile, notFolder, ?_⟩
      refine rest.imp_right fun ⟨free, held⟩ => ⟨free, held.imp_left fun ⟨draft, held⟩ => ?_⟩
      exact ⟨key, draft, by rwa [mine]⟩
    · have node := same.node place here
      have stood := kept.stands place
      unfold Stands IsFile at stood ⊢
      rw [node]
      refine stood.imp_right fun ⟨isFile, notFolder, rest⟩ => ⟨isFile, notFolder, ?_⟩
      refine rest.imp_right fun ⟨free, held⟩ => ⟨free, held.imp_left fun ⟨other, draft, isHeld, there⟩ => ?_⟩
      by_cases isMine : other = key
      · subst isMine
        rcases was draft isHeld with isHere | still
        · exact absurd (there.symm.trans isHere) here
        · exact ⟨other, draft, by rwa [mine], there⟩
      · exact ⟨other, draft, by rwa [theirs isMine], there⟩
  · by_cases isMine : other = key
    · subst isMine
      rw [mine] at isHeld
      exact (holds draft isHeld).1
    · rw [theirs isMine] at isHeld
      have held := kept.holds other draft isHeld
      refine ⟨held.isOwn, held.nameable, held.found, held.free, ?_, fun alone => ?_⟩
      · by_cases here : draft.location = location
        · exact here ▸ shared other draft isMine isHeld here
        · obtain ⟨mode, content, there⟩ := held.there
          exact ⟨mode, content, (same.node _ here).trans there⟩
      · exact absurd ((held.open' alone).1.trans (first alone).symm) isMine

section Requests

variable {content : Content}

/-- Where the way to a temporary file is still there, it is what is found. -/
theorem fileAt_of_entry (kept : Kept charter base hands files) (isHeld : hands key = some draft)
    (entered : files.entry? draft.file = .ok (some entry)) :
    ∃ mode content, FileAt files draft.file draft.location mode content := by
  have holds := kept.holds key draft isHeld
  cases (entry?_of_firm kept.firm entered).symm.trans holds.entered
  obtain ⟨mode, content, there⟩ := holds.there
  exact ⟨mode, content, entered, there⟩

theorem fileAt_of_find {place : Location × Node} (kept : Kept charter base hands files)
    (isHeld : hands key = some draft) (found : files.find draft.file = .ok place) :
    ∃ mode content, FileAt files draft.file draft.location mode content :=
  kept.fileAt_of_entry isHeld (entry?_of_find kept.firm found (kept.holds key draft isHeld).entered)

theorem fileAt_of_open (kept : Kept charter base hands files) (isHeld : hands key = some draft)
    (found : files.find draft.path.directory = .ok (draft.folder, .directory mode)) :
    ∃ mode content, FileAt files draft.file draft.location mode content :=
  kept.fileAt_of_entry isHeld (entry?_eq_of_nameable found (kept.holds key draft isHeld).nameable)

/-- A writer's own file is written to. -/
theorem write (kept : Kept charter base hands files) (first : charter.alone → key = 0)
    (isHeld : hands key = some draft) (mode : Nat) (content : Content) :
    Kept charter base hands (files.set draft.location (.file mode content)) := by
  have holds := kept.holds key draft isHeld
  have isFile := isFile_set files draft.location_ne_nil mode content
  have notFolder : ∀ mode, base.node? draft.location ≠ some (.directory mode) := by
    rw [holds.free]
    exact nofun
  rw [← Function.update_eq_self key hands]
  refine kept.change first (sameBut_set ..) (fun _ => .inr) ?_ (fun _ _ _ _ _ => isFile) fun draft' same => ?_
  · exact .inr ⟨isFile, notFolder, .inr ⟨holds.free, .inl ⟨draft, isHeld, rfl⟩⟩⟩
  · obtain rfl := Option.some.inj (same.symm.trans isHeld)
    refine ⟨⟨holds.isOwn, holds.nameable, holds.found, holds.free, isFile, fun alone => ?_⟩, .inl isHeld⟩
    obtain ⟨first, mode', found⟩ := holds.open' alone
    obtain ⟨_, _, there⟩ := holds.there
    exact ⟨first, mode', find_directory_of_firm (firm_of_sameBut_file (sameBut_set ..) there) found⟩

theorem setMode (kept : Kept charter base hands files) (first : charter.alone → key = 0)
    (isHeld : hands key = some draft) (set : files.setMode draft.file mode = .ok after) :
    Kept charter base hands after := by
  obtain ⟨place, found, -⟩ := bind_eq_ok_iff.mp set
  obtain ⟨mode', content, file⟩ := kept.fileAt_of_find isHeld found
  cases (file.setMode mode).symm.trans set
  exact kept.write first isHeld mode content

theorem overwrite (kept : Kept charter base hands files) (first : charter.alone → key = 0)
    (isHeld : hands key = some draft) (filled : files.overwrite draft.file content = .ok after) :
    Kept charter base hands after := by
  obtain ⟨place, found, -⟩ := bind_eq_ok_iff.mp filled
  obtain ⟨mode, content', file⟩ := kept.fileAt_of_find isHeld found
  cases (file.overwrite content).symm.trans filled
  exact kept.write first isHeld mode content

theorem createTemporary (kept : Kept charter base hands files) (first : charter.alone → key = 0)
    (without : hands key = none) (owned : charter.paths path)
    (created : files.createTemporary path.directory = .ok (temporary, after)) :
    ∃ draft, draft.file = temporary ∧ Kept charter base (Function.update hands key (some draft)) after := by
  obtain ⟨⟨folder, node⟩, found, rest⟩ := bind_eq_ok_iff.mp created
  cases node with
  | file | link | device => cases rest
  | directory mode =>
    obtain ⟨nameable, rfl, rfl⟩ := (createTemporary_eq_ok_iff found).mp created
    have empty := freeNumber_free files folder
    generalize files.freeNumber folder = number at *
    let draft : Draft := ⟨path, folder, number⟩
    have free : base.node? draft.location = none := kept.free empty
    have isFile := isFile_set files draft.location_ne_nil fileMode (.ofBytes .empty)
    have notFolder : ∀ mode, base.node? draft.location ≠ some (.directory mode) := by
      rw [free]
      exact nofun
    refine ⟨draft, rfl, kept.change first (sameBut_set ..) (fun draft' isHeld => ?_) ?_
      (fun _ _ _ _ _ => isFile) fun draft' same => ?_⟩
    · rw [without] at isHeld
      cases isHeld
    · exact .inr ⟨isFile, notFolder, .inr ⟨free, .inl ⟨draft, rfl, rfl⟩⟩⟩
    · obtain rfl := Option.some.inj same
      refine ⟨⟨owned, nameable, ⟨mode, find_directory_of_firm kept.firm found⟩, free, isFile,
        fun alone => ⟨first alone, mode, ?_⟩⟩, .inr empty⟩
      exact find_of_extends (extends_set empty _) found

/-- Without its temporary file a writer has nothing. -/
theorem erase (kept : Kept charter base hands files) (first : charter.alone → key = 0)
    (isHeld : hands key = some draft) :
    Kept charter base (Function.update hands key none) (files.erase draft.location) := by
  refine kept.change first (sameBut_erase ..) (fun draft' same => ?_) ?_ (fun other draft' differs => ?_) nofun
  · obtain rfl := Option.some.inj (same.symm.trans isHeld)
    exact .inl rfl
  · exact .inl ((node?_erase_self draft.location_ne_nil).trans (kept.holds key draft isHeld).free.symm)
  · exact fun isHeld' together => absurd together (kept.location_ne isHeld isHeld' differs)

/-- A temporary file takes the place of the entry of a path. -/
theorem rename (kept : Kept charter base hands files) (first : charter.alone → key = 0)
    (isHeld : hands key = some draft) (owned : charter.paths path)
    (renamed : files.rename draft.file path = .ok after) :
    Kept charter base (Function.update hands key none) after := by
  obtain ⟨old, entered, rest⟩ := bind_eq_ok_iff.mp renamed
  cases old with
  | none =>
    obtain ⟨_, _, refused⟩ := bind_eq_ok_iff.mp rest
    cases refused
  | some old =>
    obtain ⟨mode, content, file⟩ := kept.fileAt_of_entry isHeld entered
    obtain ⟨place, target, notFolder, rfl⟩ := file.rename renamed
    have isFile := isFile_set (files.erase draft.location) (location_ne_nil target) mode content
    have claimed : charter.Claims place := ⟨path, owned, base, kept.grows, entry?_of_firm kept.firm target⟩
    have twice : Function.update (Function.update hands key none) key none = Function.update hands key none :=
      Function.update_idem ..
    -- two changes: the temporary file is gone, then it is where the path has its entry
    rw [← twice]
    refine (kept.erase first isHeld).change first (sameBut_set ..) (fun draft' isHeld' => ?_) ?_
      (fun _ _ _ _ _ => isFile) nofun
    · rw [Function.update_self] at isHeld'
      cases isHeld'
    · exact .inr ⟨isFile, kept.base_ne_directory notFolder, .inl claimed⟩

/-- Where a temporary file cannot be found again another writer has closed the way to it. -/
theorem strands_of_closed (kept : Kept charter base hands files) (isHeld : hands key = some draft)
    (closed : ∀ mode, files.find draft.path.directory ≠ .ok (draft.folder, .directory mode)) :
    charter.Strands draft.location := by
  have holds := kept.holds key draft isHeld
  obtain ⟨mode, found⟩ := holds.found
  -- somewhere on the way the files are not those of the base, where the directory is found
  have differs : ¬ AgreeOn (base.visited draft.path.directory) base files := fun agree =>
    closed mode ((find_congr kept.working agree).trans found)
  simp only [AgreeOn, not_forall] at differs
  obtain ⟨stop, visited, differs⟩ := differs
  obtain ⟨-, notFolder, rest⟩ := (kept.stands stop).resolve_left differs
  rcases node?_of_visited found visited with ⟨mode, folder⟩ | ⟨target, link⟩
  · exact absurd folder (notFolder mode)
  · rcases rest with claimed | ⟨free, -⟩
    · exact .strands kept.grows holds.isOwn found holds.free visited link claimed
    · rw [free] at link
      cases link

/-- The temporary file is removed, unless the way to it is gone by then. -/
theorem remove (kept : Kept charter base hands files) (first : charter.alone → key = 0)
    (isHeld : hands key = some draft) :
    Kept charter base (Function.update hands key none) ((files.remove draft.file).toOption.getD files) := by
  cases removed : files.remove draft.file with
  | ok after =>
    obtain ⟨entry, entered, rest⟩ := bind_eq_ok_iff.mp removed
    cases entry with
    | none => cases rest
    | some entry =>
      obtain ⟨mode, content, file⟩ := kept.fileAt_of_entry isHeld entered
      cases file.remove.symm.trans removed
      exact kept.erase first isHeld
  | error error =>
    have holds := kept.holds key draft isHeld
    have closed : ∀ mode, files.find draft.path.directory ≠ .ok (draft.folder, .directory mode) := by
      intro mode found
      obtain ⟨mode', content, file⟩ := kept.fileAt_of_open isHeld found
      cases file.remove.symm.trans removed
    have notAlone : ¬ charter.alone := fun alone =>
      have ⟨_, mode, found⟩ := holds.open' alone
      closed mode found
    have notFolder : ∀ mode, base.node? draft.location ≠ some (.directory mode) := by
      rw [holds.free]
      exact nofun
    have unmoved : SameBut draft.location files files := ⟨fun _ _ => rfl, rfl⟩
    refine kept.change first unmoved (fun draft' same => ?_) ?_
      (fun other draft' differs isHeld' together => ?_) nofun
    · obtain rfl := Option.some.inj (same.symm.trans isHeld)
      exact .inl rfl
    · exact .inr ⟨holds.there, notFolder,
        .inr ⟨holds.free, .inr ⟨notAlone, kept.strands_of_closed isHeld closed⟩⟩⟩
    · exact absurd together (kept.location_ne isHeld isHeld' differs)

end Requests

end Kept

namespace Followed

theorem start (branches : Branches charter.files files) : charter.Followed (fun _ => none) files :=
  ⟨_, .start branches⟩

theorem makeDirectories (followed : charter.Followed hands files) (path : Path) :
    charter.Followed hands (files.makeDirectories path).2 :=
  have ⟨_, kept⟩ := followed
  have ⟨base, _, kept⟩ := kept.makeDirectories path
  ⟨base, kept⟩

theorem nested (followed : charter.Followed hands files) (nested : charter.files.Nested) : files.Nested :=
  have ⟨_, kept⟩ := followed
  kept.nested_files nested

theorem observed (followed : charter.Followed (fun _ => none) files) : charter.Observed files :=
  have ⟨_, kept⟩ := followed
  kept.observed

end Followed

end Charter

end Colorization.FileSystem
