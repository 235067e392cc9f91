import Colorization.Proofs.FileSystem.Again
import Colorization.Proofs.FileSystem.Visits
import Colorization.Proofs.Fixtures.Extension
import Colorization.Proofs.Snapshot.Report
import Colorization.Proofs.Text.Bytes
import Mathlib.Data.List.Sort

/-! What is discovered in a directory: the regular files of the wanted extensions, each once and in
the order of their names, in whatever order the directory is listed. -/
namespace Colorization

open Colorization.Action (Returns Fails)

namespace FileSystem

variable {files other : FileSystem} {directory path : Path} {location : Location}

/-- The path leads to a regular file, through all links. -/
def LeadsToFile (files : FileSystem) (path : Path) : Prop :=
  ∃ location mode content, files.find path = .ok (location, .file mode content)

def isRegular (files : FileSystem) (path : Path) : Bool :=
  match files.stat path with
  | .ok stat => stat.kind = .file
  | .error _ => false

theorem isRegular_iff : files.isRegular path = true ↔ files.LeadsToFile path := by
  unfold isRegular LeadsToFile stat
  rcases files.find path with error | ⟨location, node⟩
  · simp [bind, Except.bind]
  · cases node <;> simp [bind, Except.bind, pure, Except.pure]

/-- The names of the fixtures in the directory at a location. -/
structure Listing (files : FileSystem) (directory : Path) (location : Location)
    (extensions names : List String) : Prop where
  increasing : names.Pairwise fun one other => Text.bytesOf one < Text.bytesOf other
  mem_iff : ∀ name, name ∈ names ↔ (∃ node, files.node? (location ++ [name]) = some node) ∧
    files.LeadsToFile (directory.join ⟨name⟩) ∧ Path.Wanted extensions name

theorem Listing.unique {extensions names names' : List String}
    (listing : files.Listing directory location extensions names)
    (listing' : files.Listing directory location extensions names') : names = names' := by
  have increasing := listing.increasing
  have increasing' := listing'.increasing
  simp only [Text.bytesOf_lt_iff] at increasing increasing'
  exact increasing.eq_of_mem_iff increasing' fun name =>
    (listing.mem_iff name).trans (listing'.mem_iff name).symm

theorem mem_names_iff {name : String} :
    name ∈ files.names location ↔ ∃ node, files.node? (location ++ [name]) = some node := by
  constructor
  · intro member
    obtain ⟨entry, inside, same⟩ := mem_names member
    unfold node?
    rw [if_neg (by simp), ← Option.isSome_iff_exists, Option.isSome_map, List.find?_isSome]
    exact ⟨entry, inside, decide_eq_true same⟩
  · rintro ⟨node, there⟩
    obtain ⟨entry, inside, same⟩ := mem_of_node? there (by simp)
    exact List.mem_filterMap.mpr ⟨entry, inside, by simp [same]⟩

theorem node?_eq_some_iff (once : (files.nodes.map (·.1)).Nodup) (notRoot : location ≠ []) {node : Node} :
    files.node? location = some node ↔ (location, node) ∈ files.nodes := by
  rw [node?, if_neg notRoot]
  constructor
  · intro there
    obtain ⟨entry, found, rfl⟩ := Option.map_eq_some_iff.mp there
    have same : entry.1 = location := by simpa using List.find?_some found
    exact same ▸ List.mem_of_find?_eq_some found
  · intro member
    have some : (files.nodes.find? fun entry => entry.1 = location).isSome := by
      rw [List.find?_isSome]
      exact ⟨_, member, decide_eq_true rfl⟩
    obtain ⟨entry, found⟩ := Option.isSome_iff_exists.mp some
    have same : entry.1 = location := by simpa using List.find?_some found
    rw [found, List.inj_on_of_nodup_map once (List.mem_of_find?_eq_some found) member same]
    rfl

/-- It makes no difference in which order the nodes are. -/
theorem node?_of_perm (once : (files.nodes.map (·.1)).Nodup) (perm : other.nodes.Perm files.nodes)
    (location : Location) : other.node? location = files.node? location := by
  by_cases root : location = []
  · rw [node?, node?, if_pos root, if_pos root]
  · have once' : (other.nodes.map (·.1)).Nodup := (perm.map _).nodup_iff.mpr once
    ext node
    rw [node?_eq_some_iff once root, node?_eq_some_iff once' root, perm.mem_iff]

theorem Tidy.of_perm (tidy : files.Tidy) (perm : other.nodes.Perm files.nodes) : other.Tidy :=
  ⟨(perm.map _).nodup_iff.mpr tidy.once, fun entry member => tidy.plain entry (perm.mem_iff.mp member)⟩

theorem find_of_perm (tidy : files.Tidy) (perm : other.nodes.Perm files.nodes)
    (working : other.working = files.working) (path : Path) : other.find path = files.find path :=
  find_congr working fun location _ => node?_of_perm tidy.once perm location

/-- Lists that are the same but for their order have the same listing. -/
theorem Listing.of_perm {extensions names : List String} (tidy : files.Tidy)
    (perm : other.nodes.Perm files.nodes) (working : other.working = files.working)
    (listing : files.Listing directory location extensions names) :
    other.Listing directory location extensions names := by
  refine ⟨listing.increasing, fun name => (listing.mem_iff name).trans ?_⟩
  rw [LeadsToFile, LeadsToFile, node?_of_perm tidy.once perm, find_of_perm tidy perm working]

/-- The system can follow the path of a name in a directory. -/
structure Followable (directory : Path) (name : String) : Prop where
  noNul : '\x00' ∉ name.toList
  short : name.utf8ByteSize ≤ maxName
  within : (directory.join ⟨name⟩).text.utf8ByteSize < pathLimit

theorem short_of_find {name : List Char} {place : Location × Node} (plain : Path.Plain name)
    (found : files.find (directory.join ⟨String.ofList name⟩) = .ok place) :
    isTooLong (String.ofList name) = false := by
  obtain ⟨before, text⟩ := Path.segments_join_concat directory plain.noSlash
  obtain ⟨-, used, -, leads⟩ := find_eq_ok_iff.mp found
  rw [text] at leads
  obtain ⟨_, _, middle, _, -, -, onward⟩ := leads.split
  cases onward with
  | stay _ blank => exact absurd blank (by simp [plain.notEmpty, plain.notHere])
  | up => exact absurd rfl plain.notUp
  | down _ named | follow _ named => exact named.short

/-- A file in the directory is reached under its name where the system can follow the path. -/
theorem leadsToFile_join_iff {name : String} {mode mode' : Nat} {content : Content}
    (found : files.find directory = .ok (location, .directory mode)) (plain : Path.Plain name.toList)
    (there : files.node? (location ++ [name]) = some (.file mode' content)) :
    files.LeadsToFile (directory.join ⟨name⟩) ↔ Followable directory name := by
  obtain ⟨checked, -⟩ := find_eq_ok_iff.mp found
  have path := check_join checked plain.noSlash
  have entered := entry?_of_endsIn (endsIn_join found plain.noSlash) plain
  rw [String.ofList_toList] at path entered
  constructor
  · rintro ⟨stop, mode'', content', reached⟩
    obtain ⟨passed, -⟩ := find_eq_ok_iff.mp reached
    rw [← String.ofList_toList (s := name)] at reached
    have short := short_of_find plain reached
    rw [String.ofList_toList] at short
    rw [passed] at path
    split at path
    · cases path
    split at path
    · cases path
    next noNul within => exact ⟨noNul, by simpa [isTooLong] using short, Nat.lt_of_not_le within⟩
  · rintro ⟨noNul, short, within⟩
    rw [if_neg noNul, if_neg (Nat.not_le_of_lt within)] at path
    have short : isTooLong name = false := by simpa [isTooLong] using short
    simp only [path, short, bind, Except.bind] at entered
    exact ⟨_, _, _, find_of_entry? entered there nofun⟩

end FileSystem

variable {host : Host} {before after : World} {directory : Path} {extensions : List String}

theorem run_isRegularFile (reliable : host.Reliable) (path : Path) (before : World) :
    (isRegularFile path).run host before = (some (before.files.isRegular path), before.tick) := by
  have looked : before.look host (fun files => files.stat path) =
      (before.files.stat path, before.tick) := by
    rw [World.look, reliable before.clock]
  refine Routine.run_bind_eq_some_iff.mpr ⟨_, _, (Routine.run_ask_iff (.stat path)).mpr looked, ?_⟩
  unfold FileSystem.isRegular
  cases before.files.stat path <;> rfl

/-- Where nothing breaks down the regular files are told from all others. -/
theorem run_regularFiles (reliable : host.Reliable) (paths : List Path) (before : World) :
    ∃ after, (regularFiles paths).run host before =
      (some (paths.filter before.files.isRegular), after) := by
  induction paths generalizing before with
  | nil => exact ⟨before, rfl⟩
  | cons path rest ih =>
    obtain ⟨after, ran⟩ := ih before.tick
    refine ⟨after, Routine.run_bind_eq_some_iff.mpr ⟨_, _, run_isRegularFile reliable path before, ?_⟩⟩
    refine Routine.run_bind_eq_some_iff.mpr ⟨_, _, ran, ?_⟩
    rw [List.filter_cons]
    rfl

/-- The names in the order of their bytes. -/
def sortedNames (names : List String) : List String :=
  names.mergeSort fun one other => !decide (other < one)

theorem pairwise_sortedNames {names : List String} (distinct : names.Nodup) :
    (sortedNames names).Pairwise fun one other => Text.bytesOf one < Text.bytesOf other := by
  have ordered : ∀ one other : String, (!decide (other < one)) = true ↔ one ≤ other := fun one other => by
    rw [Bool.not_eq_true', decide_eq_false_iff_not, String.not_lt]
  have perm : (sortedNames names).Perm names := List.mergeSort_perm ..
  have sorted : (sortedNames names).Pairwise fun one other => (!decide (other < one)) = true := by
    refine List.pairwise_mergeSort (fun one middle other lower upper => ?_) (fun one other => ?_) names
    · rw [ordered] at *
      exact String.le_trans lower upper
    · rw [Bool.or_eq_true, ordered, ordered]
      exact String.le_total one other
  have apart : (sortedNames names).Nodup := perm.nodup_iff.mpr distinct
  refine (sorted.and apart).imp fun {one other} ⟨less, differs⟩ => ?_
  rw [Text.bytesOf_lt_iff]
  exact lt_of_le_of_ne ((ordered one other).mp less) differs

/-- The paths in a directory are in the order of the names they end in: what stands before the name
is the same in all of them. -/
theorem mergeSort_map_join {names : List String} (directory : Path)
    (plain : ∀ name ∈ names, Path.Plain name.toList) :
    (names.map fun name => directory.join ⟨name⟩).mergeSort Path.notAfter =
      (sortedNames names).map fun name => directory.join ⟨name⟩ := by
  rw [sortedNames, List.map_mergeSort (s := Path.notAfter)]
  intro one isOne other isOther
  have less := Path.components_join_lt_iff directory (plain other isOther) (plain one isOne)
  rw [Path.notAfter, decide_eq_decide.mpr less]

/-- The names in the directory at a location of regular files of the wanted extensions. -/
def FileSystem.wantedNames (files : FileSystem) (directory : Path) (location : Location)
    (extensions : List String) : List String :=
  (files.names location).filter fun name =>
    (directory.join ⟨name⟩).hasExtension extensions && files.isRegular (directory.join ⟨name⟩)

theorem listing_sortedNames {files : FileSystem} (tidy : files.Tidy) (directory : Path)
    (location : Location) (extensions : List String) :
    files.Listing directory location extensions
      (sortedNames (files.wantedNames directory location extensions)) := by
  refine ⟨pairwise_sortedNames ((tidy.nodup_names location).filter _), fun name => ?_⟩
  rw [sortedNames, List.mem_mergeSort, FileSystem.wantedNames, List.mem_filter, Bool.and_eq_true,
    FileSystem.isRegular_iff, ← FileSystem.mem_names_iff]
  refine and_congr_right fun member => ?_
  have named := Path.fileName?_join directory (tidy.plain_of_mem_names member)
  rw [String.ofList_toList] at named
  rw [Path.hasExtension_iff named, and_comm]

theorem returns_discoverFixtures_of_tidy (reliable : host.Reliable) (tidy : before.files.Tidy)
    (found : before.files.find directory = .ok (location, .directory mode)) (extensions : List String) :
    ∃ names after, Returns host (discoverFixtures directory extensions) before
        (names.map fun name => directory.join ⟨name⟩) after ∧
      before.files.Listing directory location extensions names := by
  have asked : before.look host (fun files => files.stat directory) = (_, before.tick) :=
    World.look_eq_ok_iff.mpr ⟨reliable _, FileSystem.stat_of_find_directory found, rfl⟩
  have listed : before.tick.look host (fun files => files.list directory) = (_, before.tick.tick) :=
    World.look_eq_ok_iff.mpr ⟨reliable _, FileSystem.list_of_find found, rfl⟩
  obtain ⟨after, ran⟩ := run_regularFiles reliable
    ((before.files.names location).map fun name => directory.join ⟨name⟩) before.tick.tick
  have plain : ∀ name ∈ before.files.wantedNames directory location extensions,
      Path.Plain name.toList :=
    fun _ wanted => tidy.plain_of_mem_names (List.mem_of_mem_filter wanted)
  refine ⟨_, after, returns_discoverFixtures.mpr ⟨mode, 0, _, _, _, _, asked, listed, ran, ?_⟩,
    listing_sortedNames tidy directory location extensions⟩
  rw [← mergeSort_map_join directory plain, FileSystem.wantedNames, List.filter_map, List.filter_map,
    List.filter_filter]
  rfl

theorem hasExtension_congr {extensions' : List String}
    (same : ∀ extension, extension ∈ extensions' ↔ extension ∈ extensions) (path : Path) :
    path.hasExtension extensions' = path.hasExtension extensions := by
  have empty : extensions'.isEmpty = extensions.isEmpty := by
    rw [Bool.eq_iff_iff, List.isEmpty_iff, List.isEmpty_iff, List.eq_nil_iff_forall_not_mem,
      List.eq_nil_iff_forall_not_mem]
    simp only [same]
  unfold Path.hasExtension
  rw [empty]
  cases path.extension? with
  | none => rfl
  | some extension =>
    refine congrArg _ (Bool.eq_iff_iff.mpr ?_)
    simp only [List.any_eq_true, same]

theorem discoverFixtures_congr {extensions' : List String}
    (same : ∀ extension, extension ∈ extensions' ↔ extension ∈ extensions) (directory : Path) :
    discoverFixtures directory extensions' = discoverFixtures directory extensions := by
  unfold discoverFixtures
  simp only [hasExtension_congr same]

theorem fails_discoverFixtures (reliable : host.Reliable)
    (absent : before.files.isDirectory directory = false) :
    Fails host (discoverFixtures directory extensions) before (some (.missingFixtures directory))
      before.tick := by
  have looked : before.look host (fun files => files.stat directory) =
      (before.files.stat directory, before.tick) := by
    rw [World.look, reliable before.clock]
  unfold FileSystem.isDirectory at absent
  refine Action.fails_bind.mpr (.inr ⟨_, _, (Action.returns_request (.stat directory)).mpr looked, ?_⟩)
  split
  next stat => simp [stat] at absent
  next => exact Action.fails_throw.mpr ⟨rfl, rfl⟩

/-- What discovery makes of a directory and of what is none. -/
structure Exact (host : Host) (before : World) (directory : Path) (extensions : List String) : Prop where
  listed : ∀ location mode, before.files.find directory = .ok (location, .directory mode) →
    ∃ names after, Returns host (discoverFixtures directory extensions) before
        (names.map fun name => directory.join ⟨name⟩) after ∧ after.files = before.files ∧
      before.files.Listing directory location extensions names ∧
      -- a file that is there itself is only missed where its path is none for the system
      (∀ name mode' content, before.files.node? (location ++ [name]) = some (.file mode' content) →
        (name ∈ names ↔ FileSystem.Followable directory name ∧ Path.Wanted extensions name)) ∧
      ∀ other : FileSystem, other.nodes.Perm before.files.nodes → other.working = before.files.working →
        ∃ after', Returns host (discoverFixtures directory extensions) (.start other)
          (names.map fun name => directory.join ⟨name⟩) after'
  missing : before.files.isDirectory directory = false → ∃ after,
    Fails host (discoverFixtures directory extensions) before (some (.missingFixtures directory)) after ∧
      after.files = before.files
  members : ∀ extensions' : List String,
    (∀ extension, extension ∈ extensions' ↔ extension ∈ extensions) →
      discoverFixtures directory extensions' = discoverFixtures directory extensions

/-- Discovery finds the regular files of the wanted extensions, in the order of their names. -/
theorem discoverFixtures_exact (reliable : host.Reliable) (tree : before.files.IsTree)
    (directory : Path) (extensions : List String) : Exact host before directory extensions where
  listed location mode found := by
    obtain ⟨names, after, returned, listing⟩ := returns_discoverFixtures_of_tidy reliable tree.tidy found extensions
    refine ⟨names, after, returned, files_of_discoverFixtures returned, listing, ?_, ?_⟩
    · intro name mode' content there
      have plain : Path.Plain name.toList :=
        tree.tidy.plain_of_mem_names (FileSystem.mem_names_iff.mpr ⟨_, there⟩)
      rw [listing.mem_iff, FileSystem.leadsToFile_join_iff found plain there]
      simp [there]
    · intro other perm working
      have tidy : (World.start other).files.Tidy := tree.tidy.of_perm perm
      have found' : (World.start other).files.find directory = .ok (location, .directory mode) :=
        (FileSystem.find_of_perm tree.tidy perm working directory).trans found
      obtain ⟨names', after', returned', listing'⟩ :=
        returns_discoverFixtures_of_tidy reliable tidy found' extensions
      rw [(listing.of_perm tree.tidy perm working).unique listing']
      exact ⟨after', returned'⟩
  missing absent := ⟨before.tick, fails_discoverFixtures reliable absent, rfl⟩
  members _ same := discoverFixtures_congr same directory

theorem Host.quiet_reliable (capture : Capture) : (quiet capture).Reliable := fun _ => rfl

/-- Of two files one has the extension that is wanted. -/
theorem discoverFixtures_exact_pair : (Host.quiet []).Reliable ∧ (pairOf "a.js" "b.txt").IsTree ∧
    ∃ (names : List String) (after : World),
      Returns (.quiet []) (discoverFixtures ⟨"f"⟩ ["..js"]) (.start (pairOf "a.js" "b.txt"))
        (names.map fun name => (⟨"f"⟩ : Path).join ⟨name⟩) after ∧ "a.js" ∈ names ∧ "b.txt" ∉ names := by
  have reliable := Host.quiet_reliable []
  have tree : (World.start (pairOf "a.js" "b.txt")).files.IsTree :=
    FileSystem.isTree_of_nodes (by decide) (by decide) (by decide)
  have exact' := discoverFixtures_exact reliable tree ⟨"f"⟩ ["..js"]
  obtain ⟨names, after, returned, -, -, files, -⟩ := exact'.listed ["f"] _ rfl
  refine ⟨reliable, tree, names, after, returned, (files "a.js" _ _ rfl).mpr ⟨?_, ?_⟩, fun member => ?_⟩
  · exact ⟨by decide, by decide, by decide⟩
  · exact .inr ⟨['a'], ['j', 's'], by decide, by decide, rfl, "..js", List.mem_singleton.mpr rfl, 2, rfl⟩
  · have named : (⟨"f/b.txt"⟩ : Path).fileName? = some "b.txt" := by decide
    obtain ⟨-, wanted⟩ := (files "b.txt" _ _ rfl).mp member
    exact absurd ((Path.hasExtension_iff named).mpr wanted) (by decide)

/-- The directory `f`, in which the way then stays for some steps. -/
def stayingIn : Nat → List Char
  | 0 => ['f']
  | steps + 1 => stayingIn steps ++ ['/', '.']

theorem segments_stayingIn (steps : Nat) :
    Path.segments (stayingIn steps) = ['f'] :: List.replicate steps ['.'] := by
  induction steps with
  | zero => rfl
  | succ steps ih =>
    rw [stayingIn, Path.segments_append_slash, ih, List.replicate_succ', List.cons_append]
    rfl

theorem utf8Len_stayingIn (steps : Nat) : String.utf8Len (stayingIn steps) = 2 * steps + 1 := by
  induction steps with
  | zero => decide
  | succ steps ih =>
    have two : String.utf8Len ['/', '.'] = 2 := by decide
    rw [stayingIn, String.utf8Len_append, ih, two]
    omega

theorem nul_not_mem_stayingIn (steps : Nat) : '\x00' ∉ stayingIn steps := by
  induction steps with
  | zero => decide
  | succ steps ih => simp [stayingIn, ih]

theorem head?_stayingIn (steps : Nat) : (stayingIn steps).head? = some 'f' := by
  induction steps with
  | zero => rfl
  | succ steps ih => rw [stayingIn, List.head?_append, ih]; rfl

/-- The directory `f`, by a path that leaves no room for a name of four characters behind it. -/
def longWay : Path := ⟨String.ofList (stayingIn 2045)⟩

theorem size_longWay : longWay.text.utf8ByteSize = 4091 := by
  rw [longWay, String.utf8ByteSize_ofList, utf8Len_stayingIn]

theorem find_longWay : (pairOf "a.js" "b.js").find longWay =
    .ok (["f"], .directory FileSystem.directoryMode) := by
  have relative : longWay.isAbsolute = false := by
    simp [longWay, Path.isAbsolute, head?_stayingIn]
  have folder : (pairOf "a.js" "b.js").node? ["f"] = some (.directory FileSystem.directoryMode) := rfl
  refine FileSystem.find_eq_ok_iff.mpr ⟨FileSystem.check_eq_ok_iff.mpr ⟨?_, ?_, ?_⟩, 0, Nat.zero_le _, ?_⟩
  · simpa [longWay] using nul_not_mem_stayingIn 2045
  · intro empty
    have size := size_longWay
    rw [empty] at size
    cases size
  · rw [size_longWay]
    decide
  · rw [FileSystem.start, relative]
    have stays : FileSystem.Leads (pairOf "a.js" "b.js") 0 ["f"] (List.replicate 2045 ['.'] ++ []) ["f"]
        (.directory FileSystem.directoryMode) :=
      .silent_append folder (List.filterMap_eq_nil_iff.mpr fun segment member => by
        rw [List.eq_of_mem_replicate member]
        rfl) (.here folder)
    rw [List.append_nil] at stays
    rw [longWay, String.toList_ofList, segments_stayingIn]
    have root : (pairOf "a.js" "b.js").node? [] = some (.directory FileSystem.directoryMode) := rfl
    have notLink : ∀ target, FileSystem.Node.directory FileSystem.directoryMode ≠ .link target := by
      rintro target ⟨⟩
    exact .down root ⟨by decide, by decide, by decide, by decide⟩ folder notLink stays

theorem not_followable_longWay {name : String} (plain : '/' ∉ name.toList) (four : 4 ≤ name.utf8ByteSize) :
    ¬ FileSystem.Followable longWay name := by
  rintro ⟨-, -, within⟩
  have relative := Path.isAbsolute_of_not_mem plain
  rw [String.ofList_toList] at relative
  have last : longWay.text.toList.getLast? = some '.' := by
    rw [longWay, String.toList_ofList, stayingIn, List.getLast?_append]
    rfl
  have notEmpty : longWay.text.isEmpty = false := by
    rw [String.isEmpty_eq_false_iff]
    intro empty
    rw [empty] at last
    cases last
  have joined : longWay.join ⟨name⟩ = ⟨longWay.text ++ "/" ++ name⟩ := by
    rw [Path.join, if_neg (by simp [relative]), if_neg (by simp [notEmpty, last])]
  have slash : "/".utf8ByteSize = 1 := by decide
  rw [joined, String.utf8ByteSize_append, String.utf8ByteSize_append, size_longWay, slash,
    FileSystem.pathLimit] at within
  omega

/-- Behind a path that is long enough no file of the directory is discovered. -/
theorem discovery_misses_files_behind_long_path : (pairOf "a.js" "b.js").IsTree ∧
    (pairOf "a.js" "b.js").find longWay = .ok (["f"], .directory FileSystem.directoryMode) ∧
    (pairOf "a.js" "b.js").node? (["f"] ++ ["a.js"]) = some (.file 0o644 (.ofBytes .empty)) ∧
    ∃ after, Returns (.quiet []) (discoverFixtures longWay []) (.start (pairOf "a.js" "b.js")) [] after := by
  have tree : (pairOf "a.js" "b.js").IsTree :=
    FileSystem.isTree_of_nodes (by decide) (by decide) (by decide)
  refine ⟨tree, find_longWay, rfl, ?_⟩
  have tidy : (World.start (pairOf "a.js" "b.js")).files.Tidy := tree.tidy
  have found : (World.start (pairOf "a.js" "b.js")).files.find longWay = _ := find_longWay
  obtain ⟨names, after, returned, listing⟩ :=
    returns_discoverFixtures_of_tidy (Host.quiet_reliable []) tidy found []
  have none : names = [] := by
    refine List.eq_nil_iff_forall_not_mem.mpr fun name member => ?_
    obtain ⟨there, reached, -⟩ := (listing.mem_iff name).mp member
    have isThere : name ∈ ["a.js", "b.js"] := FileSystem.mem_names_iff.mpr there
    rcases List.mem_pair.mp isThere with rfl | rfl
    all_goals
      have followable := (FileSystem.leadsToFile_join_iff find_longWay (by decide) rfl).mp reached
      exact not_followable_longWay (by decide) (by decide) followable
  subst none
  exact ⟨after, returned⟩

end Colorization
