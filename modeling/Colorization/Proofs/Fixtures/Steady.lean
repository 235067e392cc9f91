import Colorization.Proofs.CommandLine.Writing
import Colorization.Proofs.FileSystem.Lexical
import Colorization.Proofs.FileSystem.Tidy
import Colorization.Proofs.Fixtures.Listing
import Mathlib.Logic.Relation

/-! Where there are no links a suite leaves the fixtures of a directory as they are discovered, as long
as its baselines are not taken for fixtures: they are in another directory, or their extension is not
wanted. -/
namespace Colorization

open Colorization.Action (Returns Fails)
open FileSystem (Charter)

namespace FileSystem

variable {files : FileSystem} {directory : Path} {location : Location} {mode : Nat} {name : String}

/-- Without links a name leads to a file that is there itself. -/
theorem LinkFree.listed_iff (linkFree : files.LinkFree) (tidy : files.Tidy)
    (found : files.find directory = .ok (location, .directory mode)) :
    ((∃ node, files.node? (location ++ [name]) = some node) ∧ files.LeadsToFile (directory.join ⟨name⟩)) ↔
      files.IsFile (location ++ [name]) ∧ Followable directory name := by
  have plain : ∀ node, files.node? (location ++ [name]) = some node → Path.Plain name.toList :=
    fun node there => tidy.plain_of_mem_names (mem_names_iff.mpr ⟨node, there⟩)
  constructor
  · rintro ⟨⟨node, there⟩, reached⟩
    obtain ⟨stop, mode', content, led⟩ := reached
    have isPlain := plain node there
    have stop_eq := linkFree.location_of_find led
    have joined := Path.location_join files.working directory isPlain
    rw [String.ofList_toList, ← linkFree.location_of_find found] at joined
    rw [joined] at stop_eq
    subst stop_eq
    obtain ⟨-, _, -, leads⟩ := find_eq_ok_iff.mp led
    exact ⟨⟨mode', content, leads.found⟩, (leadsToFile_join_iff found isPlain leads.found).mp ⟨_, _, _, led⟩⟩
  · rintro ⟨⟨mode', content, there⟩, followable⟩
    exact ⟨⟨_, there⟩, (leadsToFile_join_iff found (plain _ there) there).mpr followable⟩

namespace Charter

variable {charter : Charter} {hands : Nat → Option Draft}

theorem Followed.working (followed : charter.Followed hands files) : files.working = charter.files.working := by
  obtain ⟨base, kept⟩ := followed
  exact kept.working.trans kept.grows.working

/-- No directory is lost. -/
theorem Followed.keeps_directory (followed : charter.Followed hands files)
    (isFolder : charter.files.node? location = some (.directory mode)) :
    files.node? location = some (.directory mode) := by
  obtain ⟨base, kept⟩ := followed
  have inBase := kept.grows.extends.node _ _ isFolder
  rcases kept.stands location with same | ⟨-, notFolder, -⟩
  · rw [same, inBase]
  · exact absurd inBase (notFolder mode)

theorem Followed.linkFree (followed : charter.Followed hands files) (linkFree : charter.files.LinkFree) :
    files.LinkFree := by
  obtain ⟨base, kept⟩ := followed
  exact fun location target isLink =>
    kept.grows.linkFree linkFree location target (kept.firm.link _ _ isLink)

/-- Without links what is found in the end is told by the texts of the paths. -/
theorem Observed.location_of_isFile (observed : charter.Observed files) (linkFree : charter.files.LinkFree)
    (isFile : files.IsFile location) : charter.files.IsFile location ∨
      ∃ path, charter.paths path ∧ location = path.location charter.files.working := by
  by_cases changed : FileKept charter.files files location
  · obtain ⟨mode, content, there⟩ := isFile
    exact .inl ⟨mode, content, (changed mode content).mp there⟩
  rcases (observed.changed location changed).2 with ⟨path, owned, enters⟩ | ⟨-, stranded⟩
  · exact .inr ⟨path, owned, linkFree.location_of_enters enters⟩
  · cases stranded with
    | strands grows _ _ _ _ isLink => exact absurd isLink (grows.linkFree linkFree _ _)

end Charter

end FileSystem

theorem Path.not_wanted_of_json {name : String} {front : List Char} {extensions : List String}
    (text : name.toList = front ++ '.' :: "json".toList) (some : extensions ≠ [])
    (others : ∀ listed ∈ extensions, listed.toList.dropWhile (· = '.') ≠ "json".toList) :
    ¬ Wanted extensions name := by
  rintro (none | ⟨stem, extension, notEmpty, noDot, text', listed, member, dots, isListed⟩)
  · exact some none
  · have parts := congrArg Prod.snd
      ((splitName_of_dot text (by decide)).symm.trans (splitName_of_dot text' noDot))
    rw [if_neg notEmpty] at parts
    split at parts
    · exact absurd parts (Option.some_ne_none _).symm
    · have same : "json".toList = extension := String.ofList_inj.mp (Option.some.inj parts)
      rw [← same] at noDot isListed
      exact others listed member ((dropWhile_dots_eq_iff noDot).mpr ⟨dots, isListed⟩)

/-- The extension of a baseline is `json`. -/
theorem Path.not_wanted_baselineName {extensions : List String} (some : extensions ≠ [])
    (others : ∀ listed ∈ extensions, listed.toList.dropWhile (· = '.') ≠ "json".toList) (fixture : Path) :
    ¬ Wanted extensions fixture.baselineName :=
  not_wanted_of_json String.toList_append some others

variable {files before after : FileSystem} {directory : Path} {extensions : List String} {fixtures : List Path}

/-- What is discovered where nothing breaks down. -/
def Discovers (files : FileSystem) (directory : Path) (extensions : List String) (fixtures : List Path) : Prop :=
  ∀ (host : Host) (world : World), host.Reliable → world.files = files →
    ∃ seen, Returns host (discoverFixtures directory extensions) world fixtures seen

theorem listing_of_returns {host : Host} {world seen : World} (reliable : host.Reliable) (tidy : world.files.Tidy)
    (returned : Returns host (discoverFixtures directory extensions) world fixtures seen) :
    ∃ location mode names, world.files.find directory = .ok (location, .directory mode) ∧
      world.files.Listing directory location extensions names ∧
      fixtures = names.map fun name => directory.join ⟨name⟩ := by
  obtain ⟨mode, size, looked, _, _, _, asked, -⟩ := returns_discoverFixtures.mp returned
  obtain ⟨-, isThere, -⟩ := World.look_eq_ok_iff.mp asked
  have folder : world.files.isDirectory directory = true := by
    rw [FileSystem.isDirectory, isThere]
    rfl
  obtain ⟨location, mode, found⟩ := FileSystem.isDirectory_iff.mp folder
  obtain ⟨names, _, returned', listing⟩ := returns_discoverFixtures_of_tidy reliable tidy found extensions
  cases returned.symm.trans returned'
  exact ⟨location, mode, names, found, listing, rfl⟩

theorem discovers_iff (tidy : files.Tidy) :
    Discovers files directory extensions fixtures ↔ ∃ location mode names,
      files.find directory = .ok (location, .directory mode) ∧
      files.Listing directory location extensions names ∧
      fixtures = names.map fun name => directory.join ⟨name⟩ := by
  constructor
  · intro discovers
    obtain ⟨seen, returned⟩ := discovers (.quiet []) (.start files) (Host.quiet_reliable []) rfl
    exact listing_of_returns (Host.quiet_reliable []) tidy returned
  · rintro ⟨location, mode, names, found, listing, rfl⟩ host world reliable rfl
    obtain ⟨names', seen, returned, listing'⟩ :=
      returns_discoverFixtures_of_tidy reliable tidy found extensions
    cases listing.unique listing'
    exact ⟨seen, returned⟩

/-- No baseline in the results directory is a fixture of the other directory. -/
def SetApart (working : Location) (directory results : Path) (extensions : List String) : Prop :=
  results.location working ≠ directory.location working ∨
    extensions ≠ [] ∧ ∀ listed ∈ extensions, listed.toList.dropWhile (· = '.') ≠ "json".toList

theorem SetApart.not_wanted {results fixture : Path} {working : Location}
    (apart : SetApart working directory results extensions) (named : fixture.fileName? = some name)
    (there : directory.location working ++ [new] = (results.baseline fixture).location working) :
    ¬ Path.Wanted extensions new := by
  rw [Path.baseline_eq named, Path.location_join _ _ (Path.plain_of_fileName? named).baselineSegment,
    ← Path.baselineName_eq named] at there
  obtain ⟨inside, same⟩ := List.append_inj' there (by simp only [List.length_singleton])
  obtain rfl := List.singleton_inj.mp same
  rcases apart with elsewhere | ⟨some, others⟩
  · exact absurd inside.symm elsewhere
  · exact Path.not_wanted_baselineName some others fixture

/-- A suite on fixtures that are discovered in the files. Any request may break down. -/
inductive SuiteOn (directory : Path) (extensions : List String) : FileSystem → FileSystem → Prop where
  | suite {host host' : Host} {runner : SnapshotRunner} {world seen before after : World} {fixtures : List Path} :
      Returns host (discoverFixtures directory extensions) world fixtures seen → before.files = world.files →
      SetApart world.files.working directory runner.resultsDir extensions →
      (runner.runSuite fixtures mode).Ends host' before result after →
      SuiteOn directory extensions world.files after.files

/-- A suite leaves the listing of the directory as it is. -/
theorem SuiteOn.listing (suite : SuiteOn directory extensions before after) (tidy : before.Tidy)
    (linkFree : before.LinkFree) : after.Tidy ∧ after.LinkFree ∧
      ∀ location mode names, before.find directory = .ok (location, .directory mode) →
        before.Listing directory location extensions names →
        after.find directory = .ok (location, .directory mode) ∧
          after.Listing directory location extensions names := by
  cases suite with
  | @suite _ _ _ host runner world _ start after fixtures returned same apart ends =>
  obtain ⟨named, -⟩ := inOneDirectory_of_discoverFixtures tidy returned
  let charter : Charter := ⟨world.files, fun path => ∃ fixture ∈ fixtures, path = runner.baselineOf fixture, False⟩
  have followed : charter.Followed (fun _ => none) after.files :=
    .runSuite runner False.elim (fun fixture member => ⟨fixture, member, rfl⟩) ends
      (same ▸ .start (.refl _))
  obtain ⟨_, middle, gathers, -, left⟩ := SnapshotRunner.gathers_of_ends ends
  have tidy' : after.files.Tidy := left ▸ gathers.tidy (same ▸ tidy)
  have linkFree' := followed.linkFree linkFree
  refine ⟨tidy', linkFree', fun location mode names isThere listing => ?_⟩
  have firm : FileSystem.Firm world.files after.files :=
    ⟨fun _ _ => followed.keeps_directory, fun _ _ isLink => absurd isLink (linkFree _ _), followed.working⟩
  have isThere' := FileSystem.find_directory_of_firm firm isThere
  refine ⟨isThere', listing.increasing, fun name => (listing.mem_iff name).trans ?_⟩
  rw [← and_assoc, ← and_assoc, linkFree.listed_iff tidy isThere, linkFree'.listed_iff tidy' isThere']
  simp only [and_assoc]
  constructor
  · exact And.imp_left (followed.observed.kept _)
  · rintro ⟨isFile, followable, wanted⟩
    refine ⟨?_, followable, wanted⟩
    -- a file that was not there is a baseline
    rcases followed.observed.location_of_isFile linkFree isFile with was | ⟨_, ⟨fixture, member, baseline⟩, there⟩
    · exact was
    · obtain ⟨_, isName, -⟩ := named fixture member
      rw [baseline, linkFree.location_of_find isThere] at there
      exact absurd wanted (apart.not_wanted isName there)

/-- However many suites are run, what is discovered stays the same. -/
theorem discovers_after_suites (tidy : before.Tidy) (linkFree : before.LinkFree)
    (discovers : Discovers before directory extensions fixtures)
    (suites : Relation.ReflTransGen (SuiteOn directory extensions) before after) :
    Discovers after directory extensions fixtures := by
  suffices kept : after.Tidy ∧ after.LinkFree ∧ Discovers after directory extensions fixtures from kept.2.2
  induction suites with
  | refl => exact ⟨tidy, linkFree, discovers⟩
  | tail _ suite ih =>
    obtain ⟨tidy, linkFree, discovers⟩ := ih
    obtain ⟨location, mode, names, isThere, listing, rfl⟩ := (discovers_iff tidy).mp discovers
    obtain ⟨tidy', linkFree', keeps⟩ := suite.listing tidy linkFree
    obtain ⟨isThere', listing'⟩ := keeps location mode names isThere listing
    exact ⟨tidy', linkFree', (discovers_iff tidy').mpr ⟨location, mode, names, isThere', listing', rfl⟩⟩

/-- A suite with its baselines beside the fixtures. -/
theorem discovers_after_suite_in_place : (pairOf "a.js" "b.txt").Tidy ∧ (pairOf "a.js" "b.txt").LinkFree ∧
    Discovers (pairOf "a.js" "b.txt") ⟨"f"⟩ ["js"] [⟨"f/a.js"⟩] ∧
    ∃ after, SuiteOn ⟨"f"⟩ ["js"] (pairOf "a.js" "b.txt") after ∧ after.IsFile ["f", "a_js.json"] ∧
      Discovers after ⟨"f"⟩ ["js"] [⟨"f/a.js"⟩] := by
  have tidy : (pairOf "a.js" "b.txt").Tidy := ⟨by decide, by decide⟩
  have linkFree : (pairOf "a.js" "b.txt").LinkFree := FileSystem.linkFree_of_nodes (by decide)
  have regular : ((regularFiles [(⟨"f"⟩ : Path).join ⟨"a.js"⟩, (⟨"f"⟩ : Path).join ⟨"b.txt"⟩]).run (.quiet [])
      (World.start (pairOf "a.js" "b.txt")).tick.tick).1 =
        some [(⟨"f"⟩ : Path).join ⟨"a.js"⟩, (⟨"f"⟩ : Path).join ⟨"b.txt"⟩] := by decide +kernel
  have wanted : [⟨"f/a.js"⟩] = ([(⟨"f"⟩ : Path).join ⟨"a.js"⟩, (⟨"f"⟩ : Path).join ⟨"b.txt"⟩].filter
      fun path => path.hasExtension ["js"]).mergeSort Path.notAfter := by decide +kernel
  have returned : Returns (.quiet []) (discoverFixtures ⟨"f"⟩ ["js"]) (.start (pairOf "a.js" "b.txt"))
      [⟨"f/a.js"⟩] _ :=
    returns_discoverFixtures.mpr ⟨_, _, _, _, _, _, rfl, rfl, Prod.ext regular rfl, wanted⟩
  have discovers : Discovers (pairOf "a.js" "b.txt") ⟨"f"⟩ ["js"] [⟨"f/a.js"⟩] :=
    (discovers_iff tidy).mpr (listing_of_returns (Host.quiet_reliable []) tidy returned)
  have apart : SetApart [] ⟨"f"⟩ (SnapshotRunner.plain ⟨"f"⟩).resultsDir ["js"] :=
    .inr ⟨by decide, by decide⟩
  have suite := SuiteOn.suite returned rfl apart
    (((SnapshotRunner.plain ⟨"f"⟩).runSuite [⟨"f/a.js"⟩] .check).ends_run (.quiet []) (.start _))
  refine ⟨tidy, linkFree, discovers, _, suite, by decide +kernel, ?_⟩
  exact discovers_after_suites tidy linkFree discovers (.single suite)

end Colorization
