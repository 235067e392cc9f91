import Colorization.Proofs.Routine.Momentary
import Colorization.Proofs.Snapshot.Policy
import Colorization.Proofs.Token.Sharing
import Mathlib.Data.List.Pairwise

/-! Fixtures whose runs have nothing to do with each other. What the run of one finds is what it
would find alone, however far the others are. -/
namespace Colorization

open FileSystem (Shelf Hand Busy Nameable temporaryName)

/-- What a program prints does not depend on the files that are there. -/
def Host.Steady (host : Host) : Prop :=
  ∀ files other program args, host.execute files program args = host.execute other program args

/-- What a program prints for a path is told by what the path leads to. -/
def Host.Faithful (host : Host) : Prop :=
  ∀ files other program args (path : Path), files.find path = other.find path →
    host.execute files program (args ++ [path.text]) = host.execute other program (args ++ [path.text])

theorem Host.Steady.faithful {host : Host} (steady : host.Steady) : host.Faithful :=
  fun files other program args path _ => steady files other program (args ++ [path.text])

/-- The files with the directory for baselines, as far as it can be made. -/
def FileSystem.furnished (files : FileSystem) (results : Path) : FileSystem :=
  (files.makeDirectories results.baselineDirectory).2

/-- Another of the fixtures has its baseline there, or a temporary file may be made there. -/
def TakenByOthers (fixtures : List Path) (fixture : Path) (ground : FileSystem) (folder location : Location) :
    Prop :=
  (∃ other ∈ fixtures, other ≠ fixture ∧ location = folder ++ [other.baselineName]) ∨
    ground.node? location = none ∧ ∃ n, location = folder ++ [temporaryName n]

/-- Whether a location is seen to be not taken: no other has its baseline there, and if nothing is
there, the name is not that of a temporary file. -/
def isSpared (fixtures : List Path) (fixture : Path) (ground : FileSystem) (folder location : Location) :
    Bool :=
  (fixtures.all fun other => other = fixture || location ≠ folder ++ [other.baselineName]) &&
    ((ground.node? location).isSome ||
      !location.getLast?.any fun name => ".colorsnap-".toList.isPrefixOf name.toList)

theorem not_taken_of_isSpared {fixtures : List Path} {fixture : Path} {ground : FileSystem}
    {folder location : Location} (spared : isSpared fixtures fixture ground folder location = true) :
    ¬ TakenByOthers fixtures fixture ground folder location := by
  rw [isSpared, Bool.and_eq_true, List.all_eq_true] at spared
  rintro (⟨other, member, differs, same⟩ | ⟨free, n, rfl⟩)
  · have apart := spared.1 other member
    simp [differs, same] at apart
  · have named := spared.2
    rw [free, FileSystem.temporaryName_eq] at named
    simp at named

structure Independent (results : Path) (fixtures : List Path) (files : FileSystem) : Prop where
  rooted : files.Rooted
  distinct : fixtures.Pairwise fun one other =>
    (results.baseline one).same (results.baseline other) = false
  /-- The directory is made, or nothing is. -/
  whole : ∀ error, (files.makeDirectories results.baselineDirectory).1 = .error error →
    files.furnished results = files
  /-- That the directory is made changes nothing for fixtures and baselines. -/
  furnished : ∀ fixture ∈ fixtures, ∀ path ∈ [fixture, results.baseline fixture],
    (files.furnished results).find path = files.find path
  /-- The way to a fixture or baseline is not through anything that is made for another. -/
  apart : ∀ folder mode,
    (files.furnished results).find results.baselineDirectory = .ok (folder, .directory mode) →
    ∀ fixture ∈ fixtures, ∀ path ∈ [fixture, results.baseline fixture],
    ∀ location ∈ (files.furnished results).visited path,
      ¬ TakenByOthers fixtures fixture (files.furnished results) folder location
  /-- The way to the directory is not through a link that a baseline replaces. -/
  way : ∀ folder mode,
    (files.furnished results).find results.baselineDirectory = .ok (folder, .directory mode) →
    ∀ fixture ∈ fixtures,
    folder ++ [fixture.baselineName] ∈ (files.furnished results).visited results.baselineDirectory →
    ∀ target, (files.furnished results).node? (folder ++ [fixture.baselineName]) ≠ some (.link target)
  /-- Temporary files can be named there, or none can. -/
  nameable : (∃ n, Nameable results.baselineDirectory n) →
    ∀ n ≤ (files.furnished results).nodes.length + fixtures.length,
      Nameable results.baselineDirectory n

namespace Independent

variable {results : Path} {fixtures : List Path} {files after : FileSystem} {fixture : Path}
  {hands : Path → Hand}

/-- The directory, once it is there, is that of the first files with nothing else. -/
def shelf (results : Path) (fixtures : List Path) (files : FileSystem) : Shelf where
  results
  fixtures fixture := fixture ∈ fixtures ∧ ∃ name, fixture.fileName? = some name
  ground there ground := match there with
    | false => ground = files
    | true => ground = files.furnished results ∧
      (files.makeDirectories results.baselineDirectory).1 = .ok ()

theorem eq_of_baselineName (independent : Independent results fixtures files)
    (member : fixture ∈ fixtures) (named : fixture.fileName? = some name) (member' : other ∈ fixtures)
    (named' : other.fileName? = some name') (same : fixture.baselineName = other.baselineName) :
    fixture = other := by
  by_contra differs
  have symmetric : Std.Symm fun one other : Path =>
      (results.baseline one).same (results.baseline other) = false :=
    ⟨fun one other apart => by simpa [Path.same, eq_comm] using apart⟩
  have apart := independent.distinct.forall member member' differs
  rw [Path.baseline_same_of_name named named' same] at apart
  cases apart

theorem nodup (independent : Independent results fixtures files) : fixtures.Nodup := by
  refine independent.distinct.imp fun apart same => ?_
  subst same
  simp [Path.same] at apart

theorem directory_shelf : (shelf results fixtures files).directory = results.baselineDirectory := rfl

theorem sound (independent : Independent results fixtures files) : (shelf results fixtures files).Sound := by
  refine ⟨fun _ member => member.2, ?_, ?_, fun ground => ?_, fun ground error => ?_⟩
  · rintro fixture other ⟨member, name, named⟩ ⟨member', name', named'⟩ same
    exact independent.eq_of_baselineName member named member' named' same
  · rintro ground folder mode ⟨same, -⟩ found fixture ⟨member, -⟩ visited
    rw [same] at found visited ⊢
    exact independent.way folder mode found fixture member visited
  · rw [directory_shelf]
    rintro rfl made
    exact ⟨rfl, made⟩
  · rw [directory_shelf]
    rintro rfl refused
    exact independent.whole error refused

/-- Who has come to the directory finds it as it was made at first. -/
theorem busy_of_inv (inv : (shelf results fixtures files).Inv hands after)
    (notAway : hands fixture ≠ .away) : (files.makeDirectories results.baselineDirectory).1 = .ok () ∧
      ∃ folder mode,
        Busy (shelf results fixtures files) hands (files.furnished results) after folder mode := by
  obtain ⟨ground, folder, mode, busy⟩ := inv.busy notAway
  have allowed := busy.allowed
  rw [show ground = files.furnished results from allowed.1] at busy
  exact ⟨allowed.2, folder, mode, busy⟩

/-- What a fixture and its baseline lead to is what they led to at first, until the new baseline
is in its place. -/
theorem find_eq (independent : Independent results fixtures files)
    (inv : (shelf results fixtures files).Inv hands after) (member : fixture ∈ fixtures)
    (notPlaced : ∀ mode bytes, hands fixture ≠ .placed mode bytes) {path : Path}
    (isOwn : path ∈ [fixture, results.baseline fixture]) : after.find path = files.find path := by
  rcases inv.state with ⟨-, same⟩ | ⟨-, ground, folder, mode, busy⟩
  · rw [show after = files from same]
  obtain ⟨same, -⟩ := busy.allowed
  rw [← independent.furnished fixture member path isOwn, ← same]
  refine FileSystem.find_congr busy.laid.working fun location visited => ?_
  have found := busy.find
  rw [same] at found visited
  have notTaken := independent.apart folder mode found fixture member path isOwn location visited
  rw [← same] at notTaken
  refine busy.laid.others location fun other isOther => notTaken ?_
  cases holds : hands other with
  | away | inside =>
    rw [holds] at isOther
    cases isOther
  | holding n mode content =>
    rw [holds] at isOther
    cases isOther
    exact .inr ⟨(busy.laid.fresh other n mode content holds).1, n, rfl⟩
  | placed mode bytes =>
    rw [holds] at isOther
    cases isOther
    refine .inl ⟨other, (inv.crew other (by rw [holds]; nofun)).1, ?_, rfl⟩
    rintro rfl
    exact notPlaced mode bytes holds

end Independent

end Colorization
