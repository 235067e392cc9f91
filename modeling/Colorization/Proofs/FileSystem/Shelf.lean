import Colorization.Proofs.FileSystem.Answers
import Colorization.Proofs.FileSystem.Visits
import Colorization.Proofs.Update

/-! Files that workers have in one directory, each under a name of its own. What a worker has
there belongs to it alone: at first its temporary file, then the file in its own place. All else
is as it would be without the workers. -/
namespace Colorization

/-- The directory that baselines are in, as it is made when one is saved. -/
def Path.baselineDirectory (results : Path) : Path := (results.join ⟨".json"⟩).directory

theorem Path.plain_json : Plain ".json".toList where
  notEmpty := by decide
  notHere := by decide
  notUp := by decide
  noSlash := by decide

/-- Every baseline is in the one directory. -/
theorem Path.directory_baseline {results fixture : Path} (named : fixture.fileName? = some name) :
    (results.baseline fixture).directory = results.baselineDirectory := by
  rw [baseline_eq named]
  exact directory_join (plain_of_fileName? named).baselineSegment plain_json

namespace FileSystem

/-- How far a worker is. -/
inductive Hand where
  /-- It has not seen the directory yet. -/
  | away
  | inside
  /-- The temporary file with the number is its own. -/
  | holding (n mode : Nat) (content : Content)
  | placed (mode : Nat) (bytes : ByteArray)
deriving Inhabited

namespace Hand

/-- Where the file of a worker is. -/
def location? (folder : Location) (fixture : Path) : Hand → Option Location
  | .away | .inside => none
  | .holding n _ _ => some (folder ++ [temporaryName n])
  | .placed _ _ => some (folder ++ [fixture.baselineName])

def file? : Hand → Option Node
  | .away | .inside => none
  | .holding _ mode content => some (.file mode content)
  | .placed mode bytes => some (.file mode (.ofBytes bytes))

end Hand

/-- What workers save, and what may be there without them, before and after the directory is. -/
structure Shelf where
  results : Path
  fixtures : Path → Prop
  ground : Bool → FileSystem → Prop

namespace Shelf

def directory (shelf : Shelf) : Path := shelf.results.baselineDirectory

structure Sound (shelf : Shelf) : Prop where
  named : ∀ fixture, shelf.fixtures fixture → ∃ name, fixture.fileName? = some name
  distinct : ∀ fixture other, shelf.fixtures fixture → shelf.fixtures other →
    fixture.baselineName = other.baselineName → fixture = other
  /-- The way to the directory is not through a link in the place of a worker's file. -/
  way : ∀ ground folder mode, shelf.ground true ground →
    ground.find shelf.directory = .ok (folder, .directory mode) →
    ∀ fixture, shelf.fixtures fixture → folder ++ [fixture.baselineName] ∈ ground.visited shelf.directory →
      ∀ target, ground.node? (folder ++ [fixture.baselineName]) ≠ some (.link target)
  made : ∀ files, shelf.ground false files → (files.makeDirectories shelf.directory).1 = .ok () →
    shelf.ground true (files.makeDirectories shelf.directory).2
  unmade : ∀ files error, shelf.ground false files →
    (files.makeDirectories shelf.directory).1 = .error error →
    shelf.ground false (files.makeDirectories shelf.directory).2

variable {shelf : Shelf} {files : FileSystem} {folder : Location} {fixture : Path}

theorem directory_baseline (named : fixture.fileName? = some name) :
    (shelf.results.baseline fixture).directory = shelf.directory :=
  Path.directory_baseline named

theorem endsIn_baseline (found : files.find shelf.directory = .ok (folder, .directory mode))
    (named : fixture.fileName? = some name) :
    EndsIn files (shelf.results.baseline fixture) folder (Path.baselineSegment name.toList) false := by
  have plain := (Path.plain_of_fileName? named).baselineSegment
  rw [← directory_baseline named, Path.baseline_eq named] at found
  rw [Path.baseline_eq named]
  exact endsIn_join_of_directory plain found

theorem entry?_baseline (found : files.find shelf.directory = .ok (folder, .directory mode))
    (named : fixture.fileName? = some name) :
    files.entry? (shelf.results.baseline fixture) = do
      check (shelf.results.baseline fixture)
      if isTooLong fixture.baselineName then throw .nameTooLong
      return some ⟨folder ++ [fixture.baselineName], false⟩ := by
  rw [Path.baselineName_eq named]
  exact entry?_of_endsIn (endsIn_baseline found named) (Path.plain_of_fileName? named).baselineSegment

/-- The entry of a baseline is in the directory, under its name. -/
theorem entry_baseline (found : files.find shelf.directory = .ok (folder, .directory mode))
    (named : fixture.fileName? = some name)
    (entered : files.entry? (shelf.results.baseline fixture) = .ok (some ⟨location, slash⟩)) :
    check (shelf.results.baseline fixture) = .ok () ∧ isTooLong fixture.baselineName = false ∧
      location = folder ++ [fixture.baselineName] := by
  rw [entry?_baseline found named] at entered
  obtain ⟨⟨⟩, checked, rest⟩ := bind_eq_ok_iff.mp entered
  cases short : isTooLong fixture.baselineName with
  | true =>
    rw [short] at rest
    cases rest
  | false =>
    rw [short] at rest
    cases rest
    exact ⟨checked, rfl, rfl⟩

end Shelf

theorem temporaryName_ne_baselineName (n : Nat) (fixture : Path) :
    temporaryName n ≠ fixture.baselineName := by
  intro same
  have last : (temporaryName n).toList.getLast? = some 'n' := by
    rw [same, Path.baselineName, String.toList_append, List.getLast?_append]
    rfl
  rw [temporaryName_eq, String.toList_ofList, List.getLast?_append] at last
  cases digit : (Nat.toDigits 10 n).getLast? with
  | none =>
    rw [digit] at last
    exact absurd last (by decide)
  | some c =>
    rw [digit] at last
    cases last
    exact absurd (Nat.isDigit_of_mem_toDigits (by decide) (by decide) (List.mem_of_getLast? digit))
      (by decide)

/-- The files of the workers on what would be there without them. -/
structure Laid (shelf : Shelf) (ground files : FileSystem) (folder : Location)
    (hands : Path → Hand) : Prop where
  working : files.working = ground.working
  others : ∀ location, (∀ fixture, (hands fixture).location? folder fixture ≠ some location) →
    files.node? location = ground.node? location
  own : ∀ fixture location, (hands fixture).location? folder fixture = some location →
    files.node? location = (hands fixture).file?
  single : ∀ fixture other location, (hands fixture).location? folder fixture = some location →
    (hands other).location? folder other = some location → fixture = other
  /-- No directory is in the way of a worker's file. -/
  under : ∀ fixture location, (hands fixture).location? folder fixture = some location →
    ∀ mode, ground.node? location ≠ some (.directory mode)
  /-- A temporary file is where nothing was. -/
  fresh : ∀ fixture n mode content, hands fixture = .holding n mode content →
    ground.node? (folder ++ [temporaryName n]) = none ∧ Nameable shelf.directory n
  /-- A file in its place can be named by its path. -/
  kept : ∀ fixture mode bytes, hands fixture = .placed mode bytes →
    check (shelf.results.baseline fixture) = .ok () ∧ isTooLong fixture.baselineName = false

variable {shelf : Shelf} {ground files after : FileSystem} {folder : Location} {mode : Nat}
  {hands : Path → Hand} {fixture : Path} {hand : Hand}

namespace Laid

/-- One worker changes what is its own. -/
theorem change (laid : Laid shelf ground files folder hands)
    (working : after.working = files.working)
    (others : ∀ location, (hands fixture).location? folder fixture ≠ some location →
      hand.location? folder fixture ≠ some location → after.node? location = files.node? location)
    (left : ∀ location, (hands fixture).location? folder fixture = some location →
      hand.location? folder fixture ≠ some location → after.node? location = ground.node? location)
    (own : ∀ location, hand.location? folder fixture = some location →
      after.node? location = hand.file? ∧ (∀ mode, ground.node? location ≠ some (.directory mode)) ∧
        ∀ other, other ≠ fixture → (hands other).location? folder other ≠ some location)
    (fresh : ∀ n mode content, hand = .holding n mode content →
      ground.node? (folder ++ [temporaryName n]) = none ∧ Nameable shelf.directory n)
    (kept : ∀ mode bytes, hand = .placed mode bytes →
      check (shelf.results.baseline fixture) = .ok () ∧ isTooLong fixture.baselineName = false) :
    Laid shelf ground after folder (Function.update hands fixture hand) := by
  have mine : Function.update hands fixture hand fixture = hand := Function.update_self ..
  have theirs : ∀ {other}, other ≠ fixture → Function.update hands fixture hand other = hands other :=
    fun differs => Function.update_of_ne differs ..
  have single := sole_update (fun other (held : Hand) location => held.location? folder other = some location)
    laid.single fun other differs location isOwn => (own location isOwn).2.2 other differs
  refine ⟨working.trans laid.working, fun location free => ?_, fun other location isOwn => ?_, single,
    fun other location isOwn => ?_, fun other n mode content holds => ?_, fun other mode bytes holds => ?_⟩
  · have notMine := free fixture
    rw [mine] at notMine
    by_cases was : (hands fixture).location? folder fixture = some location
    · exact left location was notMine
    · rw [others location was notMine]
      refine laid.others location fun other => ?_
      by_cases same : other = fixture
      · exact same ▸ was
      · exact theirs same ▸ free other
  · by_cases same : other = fixture
    · subst same
      rw [mine] at isOwn ⊢
      exact (own location isOwn).1
    · rw [theirs same] at isOwn ⊢
      have notWas : (hands fixture).location? folder fixture ≠ some location := fun was =>
        same (laid.single _ _ location isOwn was)
      have notMine : hand.location? folder fixture ≠ some location := fun isMine =>
        (own location isMine).2.2 other same isOwn
      rw [others location notWas notMine]
      exact laid.own other location isOwn
  · by_cases same : other = fixture
    · subst same
      rw [mine] at isOwn
      exact (own location isOwn).2.1
    · rw [theirs same] at isOwn
      exact laid.under other location isOwn
  · by_cases same : other = fixture
    · subst same
      rw [mine] at holds
      exact fresh n mode content holds
    · rw [theirs same] at holds
      exact laid.fresh other n mode content holds
  · by_cases same : other = fixture
    · subst same
      rw [mine] at holds
      exact kept mode bytes holds
    · rw [theirs same] at holds
      exact laid.kept other mode bytes holds

/-- Nothing is changed by workers that have not seen the directory. -/
theorem start (idle : ∀ fixture, hands fixture = .away) : Laid shelf files files folder hands := by
  refine ⟨rfl, fun _ _ => rfl, ?_, ?_, ?_, ?_, ?_⟩
  all_goals
    intro fixture
    rw [idle fixture]
    nofun

theorem enter (laid : Laid shelf ground files folder hands) (away : hands fixture = .away) :
    Laid shelf ground files folder (Function.update hands fixture .inside) := by
  refine laid.change rfl (fun _ _ _ => rfl) (fun location isOwn => ?_) nofun nofun nofun
  rw [away] at isOwn
  cases isOwn

/-- No worker's file is on the way to the directory. -/
theorem agreeOn (laid : Laid shelf ground files folder hands)
    (found : ground.find path = .ok (folder', .directory mode))
    (way : ∀ fixture, hands fixture ≠ .away → folder ++ [fixture.baselineName] ∈ ground.visited path →
      ∀ target, ground.node? (folder ++ [fixture.baselineName]) ≠ some (.link target)) :
    AgreeOn (ground.visited path) ground files := by
  intro location member
  refine laid.others location fun fixture isOwn => ?_
  rcases node?_of_visited found member with ⟨mode', isFolder⟩ | ⟨target, isLink⟩
  · exact laid.under fixture location isOwn mode' isFolder
  · cases holds : hands fixture with
    | away | inside =>
      rw [holds] at isOwn
      cases isOwn
    | holding n mode content =>
      rw [holds] at isOwn
      cases isOwn
      rw [(laid.fresh fixture n mode content holds).1] at isLink
      cases isLink
    | placed mode bytes =>
      rw [holds] at isOwn
      cases isOwn
      refine way fixture ?_ member target isLink
      rw [holds]
      nofun

/-- Where nothing is no worker has a file. -/
theorem free (laid : Laid shelf ground files folder hands) (empty : files.node? location = none) :
    (∀ fixture, (hands fixture).location? folder fixture ≠ some location) ∧
      ground.node? location = none := by
  have noOwner : ∀ fixture, (hands fixture).location? folder fixture ≠ some location := by
    intro fixture isOwn
    have own := laid.own fixture location isOwn
    rw [empty] at own
    cases holds : hands fixture with
    | away | inside =>
      rw [holds] at isOwn
      cases isOwn
    | holding | placed =>
      rw [holds] at own
      cases own
  exact ⟨noOwner, (laid.others location noOwner).symm.trans empty⟩

end Laid

end FileSystem

end Colorization
