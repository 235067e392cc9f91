import Colorization.Proofs.FileSystem.Again
import Colorization.Proofs.FileSystem.Contested
import Colorization.Proofs.Update

/-! Calls that write to one path: every request of theirs keeps what there is while they are at
their stages, whichever of them makes it. -/
namespace Colorization.FileSystem

variable {first ready files after : FileSystem} {path temporary : Path} {folder place : Location}
  {mode n : Nat} {content : Content} {bytes : ByteArray} {drafts : Nat → Option ByteArray}
  {stages : Nat → Progress} {placed : List Nat} {stage : Progress}

/-- A call without a temporary file does not share one. -/
theorem update_temporary? (without : stage.temporary? = none)
    (isOwn : (Function.update stages i stage j).temporary? = some temporary) :
    j ≠ i ∧ (stages j).temporary? = some temporary := by
  have differs : j ≠ i := by
    rintro rfl
    rw [Function.update_self, without] at isOwn
    cases isOwn
  rw [Function.update_of_ne differs] at isOwn
  exact ⟨differs, isOwn⟩

/-- Another temporary file is at another place. -/
theorem temporary_place_ne (isOwn : (stages j).temporary? = some (temporaryPath path.directory m))
    (notThis : (stages j).temporary? ≠ some (temporaryPath path.directory n)) (folder : Location) :
    folder ++ [temporaryName m] ≠ folder ++ [temporaryName n] := by
  intro together
  obtain rfl : m = n := temporaryName_injective (by simpa using together)
  exact notThis isOwn

namespace Contested

/-- The temporary file of a call is nobody else's. -/
theorem others (contested : Contested ready path folder drafts stages placed files)
    (mine : (stages i).temporary? = some temporary) (j : Nat) (differs : j ≠ i) :
    (stages j).temporary? ≠ some temporary :=
  fun isOwn => differs (contested.distinct j i _ isOwn mine)

/-- A call may go on to a temporary file that is nobody else's. -/
theorem distinct_change (contested : Contested ready path folder drafts stages placed files)
    (others : ∀ j, j ≠ i → (stages j).temporary? ≠ some temporary)
    (only : ∀ other, stage.temporary? = some other → other = temporary) (j k : Nat) (other : Path)
    (isOwn : (Function.update stages i stage j).temporary? = some other)
    (isOwn' : (Function.update stages i stage k).temporary? = some other) : j = k :=
  sole_update (fun _ (stage : Progress) temporary => stage.temporary? = some temporary) contested.distinct
    (fun j differs other isOwn => only other isOwn ▸ others j differs) j k other isOwn isOwn'

/-- A change at the temporary file of one call. -/
theorem change (contested : Contested ready path folder drafts stages placed files)
    (site : Site ready path folder mode) (free : ready.node? (folder ++ [temporaryName n]) = none)
    (same : SameBut (folder ++ [temporaryName n]) files after)
    (others : ∀ j, j ≠ i → (stages j).temporary? ≠ some (temporaryPath path.directory n))
    (mine : ∀ temporary, (stages i).temporary? = some temporary →
      temporary = temporaryPath path.directory n)
    (held : ∀ temporary, stage.temporary? = some temporary → temporary = temporaryPath path.directory n ∧
      ∃ mode content, Held ready after path.directory folder n mode content ∧
        (stage = .drafted temporary → ∃ bytes, drafts i = some bytes ∧ content = .ofBytes bytes))
    (gone : stage.temporary? = none → placed = [] → after.node? (folder ++ [temporaryName n]) = none) :
    Contested ready path folder drafts (Function.update stages i stage) placed after where
  working := same.working.trans contested.working
  kept location node there := by
    have differs : location ≠ folder ++ [temporaryName n] := by
      rintro rfl
      rw [free] at there
      cases there
    rw [same.node location differs]
    exact contested.kept location node there
  held j temporary isOwn := by
    by_cases isMine : j = i
    · subst isMine
      rw [Function.update_self] at isOwn ⊢
      obtain ⟨named, mode, content, held, full⟩ := held temporary isOwn
      exact ⟨n, mode, content, named, held, full⟩
    · rw [Function.update_of_ne isMine] at isOwn ⊢
      obtain ⟨m, mode, content, rfl, held, full⟩ := contested.held j temporary isOwn
      have differs := temporary_place_ne isOwn (others j isMine) folder
      refine ⟨m, mode, content, rfl, ⟨held.nameable, held.free, ?_⟩, full⟩
      rw [same.node _ differs, held.there]
  distinct := contested.distinct_change others fun temporary isOwn => (held temporary isOwn).1
  exact none location node there := by
    by_cases here : location = folder ++ [temporaryName n]
    · subst here
      right
      cases owned : stage.temporary? with
      | none =>
        rw [gone owned none] at there
        cases there
      | some temporary =>
        obtain ⟨rfl, -⟩ := held temporary owned
        exact ⟨i, n, rfl, by rw [Function.update_self, owned]⟩
    · rw [same.node location here] at there
      rcases contested.exact none location node there with would | ⟨j, m, rfl, isOwn⟩
      · exact .inl would
      · refine .inr ⟨j, m, rfl, ?_⟩
        have differs : j ≠ i := by
          rintro rfl
          exact here (by rw [temporaryPath_injective (mine _ isOwn)])
        rw [Function.update_of_ne differs, isOwn]
  target j last := by
    obtain ⟨place, mode', bytes, draft, entered, notFolder, isFile⟩ := contested.target j last
    refine ⟨place, mode', bytes, draft, entered, notFolder, ?_⟩
    rw [same.node place (site.place_ne entered free), isFile]

/-- Calls that are without a temporary file of their own change nothing for the others. -/
theorem distinct_update (contested : Contested ready path folder drafts stages placed files)
    (without : stage.temporary? = none) (i j k : Nat) (temporary : Path)
    (isOwn : (Function.update stages i stage j).temporary? = some temporary)
    (isOwn' : (Function.update stages i stage k).temporary? = some temporary) : j = k :=
  contested.distinct j k temporary (update_temporary? without isOwn).2 (update_temporary? without isOwn').2

theorem unmoved (contested : Contested ready path folder drafts stages placed files)
    (without : (stages i).temporary? = none) (without' : stage.temporary? = none) :
    Contested ready path folder drafts (Function.update stages i stage) placed files := by
  refine ⟨contested.working, contested.kept, fun j temporary isOwn => ?_,
    contested.distinct_update without' i, fun none location node there => ?_, contested.target⟩
  · obtain ⟨differs, wasOwn⟩ := update_temporary? without' isOwn
    rw [Function.update_of_ne differs]
    exact contested.held j temporary wasOwn
  · refine (contested.exact none location node there).imp_right ?_
    rintro ⟨j, m, same, isOwn⟩
    refine ⟨j, m, same, ?_⟩
    rw [Function.update_of_ne, isOwn]
    rintro rfl
    rw [without] at isOwn
    cases isOwn

/-- The temporary file of a call is written to, and is still its own. -/
theorem write (contested : Contested ready path folder drafts stages placed files)
    (site : Site ready path folder mode) (held : Held ready files path.directory folder n mode₁ content₁)
    (mine : (stages i).temporary? = some (temporaryPath path.directory n))
    (mine' : stage.temporary? = some (temporaryPath path.directory n))
    (full : stage = .drafted (temporaryPath path.directory n) →
      ∃ bytes, drafts i = some bytes ∧ content₂ = .ofBytes bytes) :
    Contested ready path folder drafts (Function.update stages i stage) placed
      (files.set (folder ++ [temporaryName n]) (.file mode₂ content₂)) := by
  refine contested.change site held.free (sameBut_set ..) (contested.others mine)
    (fun temporary isOwn => ?_) (fun temporary isOwn => ?_) (fun none => ?_)
  · exact Option.some.inj (isOwn.symm.trans mine)
  · obtain rfl := Option.some.inj (isOwn.symm.trans mine')
    exact ⟨rfl, mode₂, content₂, ⟨held.nameable, held.free, node?_set_self (by simp) _⟩, full⟩
  · rw [mine'] at none
    cases none

theorem setMode (contested : Contested ready path folder drafts stages placed files)
    (site : Site ready path folder mode) (drafting : stages i = .drafting temporary)
    (set : files.setMode temporary mode' = .ok after) :
    Contested ready path folder drafts stages placed after := by
  have mine : (stages i).temporary? = some temporary := by rw [drafting]; rfl
  obtain ⟨n, mode₁, content, rfl, held, -⟩ := contested.held i temporary mine
  obtain ⟨⟨location, node⟩, found, -⟩ := bind_eq_ok_iff.mp set
  have file := contested.fileAt_of_find site held found
  cases (file.setMode mode').symm.trans set
  have written : Contested ready path folder drafts (Function.update stages i (stages i)) placed
      (files.set (folder ++ [temporaryName n]) (.file mode' content)) :=
    contested.write site held mine mine (by rw [drafting]; nofun)
  rwa [Function.update_eq_self] at written

theorem overwrite (contested : Contested ready path folder drafts stages placed files)
    (site : Site ready path folder mode) (drafting : stages i = .drafting temporary)
    (filled : files.overwrite temporary content = .ok after)
    (mine' : stage.temporary? = some temporary)
    (full : stage = .drafted temporary → ∃ bytes, drafts i = some bytes ∧ content = .ofBytes bytes) :
    Contested ready path folder drafts (Function.update stages i stage) placed after := by
  have mine : (stages i).temporary? = some temporary := by rw [drafting]; rfl
  obtain ⟨n, mode₁, content₁, rfl, held, -⟩ := contested.held i temporary mine
  obtain ⟨⟨location, node⟩, found, -⟩ := bind_eq_ok_iff.mp filled
  have file := contested.fileAt_of_find site held found
  cases (file.overwrite content).symm.trans filled
  exact contested.write site held mine mine' full

/-- The temporary file is removed, unless the way to it is gone by then. -/
theorem remove (contested : Contested ready path folder drafts stages placed files)
    (site : Site ready path folder mode) (mine : (stages i).temporary? = some temporary) :
    Contested ready path folder drafts (Function.update stages i .gone) placed
      ((files.remove temporary).toOption.getD files) := by
  obtain ⟨n, mode₁, content, rfl, held, -⟩ := contested.held i temporary mine
  have others := contested.others mine
  have only : ∀ temporary, (stages i).temporary? = some temporary →
      temporary = temporaryPath path.directory n :=
    fun temporary isOwn => Option.some.inj (isOwn.symm.trans mine)
  have erased : ∀ {after}, files.remove (temporaryPath path.directory n) = .ok after →
      after = files.erase (folder ++ [temporaryName n]) := by
    intro after removed
    obtain ⟨entry, entered, rest⟩ := bind_eq_ok_iff.mp removed
    cases entry with
    | none => cases rest
    | some entry =>
      have file := contested.fileAt_of_entry site held entered
      exact (Except.ok.inj (file.remove.symm.trans removed)).symm
  cases removed : files.remove (temporaryPath path.directory n) with
  | ok after =>
    rw [erased removed]
    refine contested.change site held.free (sameBut_erase ..) others only nofun fun _ _ => ?_
    exact node?_erase_self (by simp)
  | error error =>
    refine contested.change site held.free ⟨fun _ _ => rfl, rfl⟩ others only nofun fun _ none => ?_
    subst none
    have file := contested.fileAt_of_nil site held
    cases file.remove.symm.trans removed

theorem createTemporary (contested : Contested ready path folder drafts stages placed files)
    (site : Site ready path folder mode) (without : (stages i).temporary? = none)
    (created : files.createTemporary path.directory = .ok (temporary, after)) :
    Contested ready path folder drafts (Function.update stages i (.drafting temporary)) placed after := by
  obtain ⟨⟨location, node⟩, found, rest⟩ := bind_eq_ok_iff.mp created
  cases node with
  | file | link | device => cases rest
  | directory mode' =>
    obtain rfl := contested.find_eq found site.found
    obtain ⟨nameable, rfl, rfl⟩ := (createTemporary_eq_ok_iff found).mp created
    have empty := freeNumber_free files location
    generalize files.freeNumber location = n at *
    have free := contested.free empty
    refine contested.change site free (sameBut_set ..) (fun j differs isOwn => ?_)
      (fun temporary isOwn => ?_) (fun temporary isOwn => ?_) nofun
    · obtain ⟨_, _, held⟩ := contested.held_of_temporary isOwn
      rw [held.there] at empty
      cases empty
    · rw [without] at isOwn
      cases isOwn
    · cases isOwn
      exact ⟨rfl, fileMode, _, ⟨nameable, free, node?_set_self (by simp) _⟩, nofun⟩

/-- Once something is in its place directories may be made anew, and nothing else. -/
theorem grow (contested : Contested ready path folder drafts stages placed files)
    (notNil : placed ≠ []) (grows : Grows files after) :
    Contested ready path folder drafts stages placed after := by
  refine ⟨grows.working.trans contested.working, fun location node there => ?_,
    fun i temporary isOwn => ?_, contested.distinct, fun none => absurd none notNil, fun i last => ?_⟩
  · exact (contested.kept location node there).imp_left (grows.extends.node _ _)
  · obtain ⟨n, mode, content, named, held, full⟩ := contested.held i temporary isOwn
    exact ⟨n, mode, content, named, ⟨held.nameable, held.free, grows.extends.node _ _ held.there⟩, full⟩
  · obtain ⟨place, mode, bytes, draft, entered, notFolder, isFile⟩ := contested.target i last
    exact ⟨place, mode, bytes, draft, entered, notFolder, grows.extends.node _ _ isFile⟩

theorem makeDirectories (contested : Contested ready path folder drafts stages placed files)
    (site : Site ready path folder mode) :
    Contested ready path folder drafts stages placed (files.makeDirectories path.directory).2 := by
  by_cases none : placed = []
  · subst none
    rw [makeDirectories_of_find (find_of_extends contested.extends_of_nil site.found)]
    exact contested
  · exact contested.grow none (grows_makeDirectories ..)

/-- The path ends at the entry that it would end at. -/
theorem entry?_eq (contested : Contested ready path folder drafts stages placed files)
    (site : Site ready path folder mode) (entered : files.entry? path = .ok (some ⟨place, slash⟩)) :
    ready.entry? path = .ok (some ⟨place, slash⟩) := by
  obtain ⟨checked, folder', name, named, ends, rfl⟩ := entry?_eq_ok_iff.mp entered
  have ⟨before, blanks, _, _, text, empty, isSlash, _, _⟩ := ends
  have ground := endsIn_of_directory site.found named.component? empty text
  rw [← isSlash] at ground
  obtain ⟨rfl, -, -⟩ := contested.endsIn_eq ends ground named.notEmpty named.notEmpty
  exact entry?_eq_ok_iff.mpr ⟨checked, _, name, named, ground, rfl⟩

/-- A call puts its file, which has all of its bytes, in the place of the path's entry. -/
theorem rename (contested : Contested ready path folder drafts stages placed files)
    (site : Site ready path folder mode) (drafted : stages i = .drafted temporary)
    (renamed : files.rename temporary path = .ok after) :
    Contested ready path folder drafts (Function.update stages i .placed) (placed ++ [i]) after := by
  have mine : (stages i).temporary? = some temporary := by rw [drafted]; rfl
  obtain ⟨n, mode', content, rfl, held, full⟩ := contested.held i temporary mine
  obtain ⟨bytes, draft, rfl⟩ := full drafted
  obtain ⟨entry, entered, rest⟩ := bind_eq_ok_iff.mp renamed
  cases entry with
  | none => obtain ⟨_, -, ⟨⟩⟩ := bind_eq_ok_iff.mp rest
  | some entry =>
    have file := contested.fileAt_of_entry site held entered
    obtain ⟨place, toPlace, notFolder, rfl⟩ := file.rename renamed
    have toPlace := contested.entry?_eq site toPlace
    have notRoot := location_ne_nil toPlace
    have notOwn : ∀ {m}, ready.node? (folder ++ [temporaryName m]) = none →
        folder ++ [temporaryName m] ≠ place := fun free => (site.place_ne toPlace free).symm
    have elsewhere : ∀ location, location ≠ place → location ≠ folder ++ [temporaryName n] →
        ((files.erase (folder ++ [temporaryName n])).set place (.file mode' (.ofBytes bytes))).node?
          location = files.node? location := by
      intro location differs notTemporary
      rw [node?_set_of_ne differs, node?_erase_of_ne notTemporary]
    refine ⟨contested.working, fun location node there => ?_, fun j temporary isOwn => ?_,
      contested.distinct_update rfl i, fun none => absurd none (by simp), fun j last => ?_⟩
    · by_cases here : location = place
      · exact .inr ⟨by simp, here ▸ toPlace⟩
      · left
        rw [elsewhere location here]
        · refine (contested.kept location node there).resolve_right fun ⟨_, entered'⟩ => here ?_
          cases toPlace.symm.trans entered'
          rfl
        · rintro rfl
          rw [held.free] at there
          cases there
    · obtain ⟨differs, wasOwn⟩ := update_temporary? rfl isOwn
      rw [Function.update_of_ne differs]
      obtain ⟨m, mode, content, rfl, held', full⟩ := contested.held j temporary wasOwn
      refine ⟨m, mode, content, rfl, ⟨held'.nameable, held'.free, ?_⟩, full⟩
      rw [elsewhere _ (notOwn held'.free), held'.there]
      exact temporary_place_ne wasOwn (contested.others mine j differs) folder
    · rw [List.getLast?_concat] at last
      cases last
      refine ⟨place, mode', bytes, draft, toPlace, fun mode'' isFolder => ?_, node?_set_self notRoot _⟩
      rcases contested.kept place _ isFolder with there | ⟨notNil, -⟩
      · exact notFolder mode'' there
      · obtain ⟨k, last⟩ := Option.ne_none_iff_exists'.mp (mt List.getLast?_eq_none_iff.mp notNil)
        obtain ⟨place', _, _, -, toPlace', notFolder', -⟩ := contested.target k last
        cases toPlace.symm.trans toPlace'
        exact notFolder' mode'' isFolder

theorem start (without : ∀ i, (stages i).temporary? = none) :
    Contested ready path folder drafts stages [] ready := by
  refine ⟨rfl, fun _ _ there => .inl there, fun i temporary isOwn => ?_,
    fun i _ temporary isOwn _ => ?_, fun _ _ _ there => .inl there, nofun⟩
  all_goals
    rw [without i] at isOwn
    cases isOwn

end Contested

/-- The bytes are at the path's entry, nothing else is read, and they are read unless the way to
them went through a link in their place. -/
structure Written (ready files : FileSystem) (path : Path) (bytes : ByteArray) : Prop where
  there : ∃ place mode, ready.entry? path = .ok (some ⟨place, false⟩) ∧
    files.node? place = some (.file mode (.ofBytes bytes))
  only : ∀ other, files.read path = .ok other → other = bytes
  readable : ¬ ready.RunsThroughItself path → files.read path = .ok bytes

/-- Either no call has made a temporary file, and all that is new are directories above the path,
or the directory is there and they contend for the path in it. -/
def Shared (first : FileSystem) (path : Path) (drafts : Nat → Option ByteArray) (stages : Nat → Progress)
    (placed : List Nat) (files : FileSystem) : Prop :=
  ((∀ i, (stages i).temporary? = none) ∧ placed = [] ∧ (files = first ∨ files = first.prepared path)) ∨
    ∃ folder mode, Site (first.prepared path) path folder mode ∧
      Contested (first.prepared path) path folder drafts stages placed files

namespace Shared

theorem start (without : ∀ i, (stages i).temporary? = none) :
    Shared first path drafts stages [] first :=
  .inl ⟨without, rfl, .inl rfl⟩

/-- Who has a temporary file contends for the path. -/
theorem contested (shared : Shared first path drafts stages placed files)
    (mine : (stages i).temporary? = some temporary) :
    ∃ folder mode, Site (first.prepared path) path folder mode ∧
      Contested (first.prepared path) path folder drafts stages placed files := by
  refine shared.resolve_left fun ⟨without, _⟩ => ?_
  rw [without i] at mine
  cases mine

theorem unmoved (shared : Shared first path drafts stages placed files)
    (without : (stages i).temporary? = none) (without' : stage.temporary? = none) :
    Shared first path drafts (Function.update stages i stage) placed files := by
  rcases shared with ⟨none, rest⟩ | ⟨folder, mode, site, contested⟩
  · refine .inl ⟨fun j => ?_, rest⟩
    by_cases same : j = i
    · rw [same, Function.update_self, without']
    · rw [Function.update_of_ne same, none j]
  · exact .inr ⟨folder, mode, site, contested.unmoved without without'⟩

theorem makeDirectories (shared : Shared first path drafts stages placed files) :
    Shared first path drafts stages placed (files.makeDirectories path.directory).2 := by
  rcases shared with ⟨none, nil, rfl | rfl⟩ | ⟨folder, mode, site, contested⟩
  · exact .inl ⟨none, nil, .inr rfl⟩
  · exact .inl ⟨none, nil, .inr (makeDirectories_again first path.directory)⟩
  · exact .inr ⟨folder, mode, site, contested.makeDirectories site⟩

/-- The directory that a temporary file is made in is there without further ones. -/
theorem createTemporary (shared : Shared first path drafts stages placed files)
    (plain : ¬ (first.prepared path).LeadsToTemporary path) (without : (stages i).temporary? = none)
    (created : files.createTemporary path.directory = .ok (temporary, after)) :
    Shared first path drafts (Function.update stages i (.drafting temporary)) placed after := by
  rcases shared with ⟨none, rfl, begun⟩ | ⟨folder, mode, site, contested⟩
  · obtain ⟨⟨folder, node⟩, found, rest⟩ := bind_eq_ok_iff.mp created
    cases node with
    | file | link | device => cases rest
    | directory mode =>
      have same : files = first.prepared path := by
        rcases begun with rfl | same
        · rw [prepared, makeDirectories_of_find found]
        · exact same
      subst same
      have site : Site (first.prepared path) path folder mode := ⟨found, plain⟩
      exact .inr ⟨folder, mode, site, (Contested.start none).createTemporary site without created⟩
  · exact .inr ⟨folder, mode, site, contested.createTemporary site without created⟩

theorem setMode (shared : Shared first path drafts stages placed files)
    (drafting : stages i = .drafting temporary) (set : files.setMode temporary mode' = .ok after) :
    Shared first path drafts stages placed after := by
  obtain ⟨folder, mode, site, contested⟩ := shared.contested (congrArg Progress.temporary? drafting)
  exact .inr ⟨folder, mode, site, contested.setMode site drafting set⟩

theorem overwrite (shared : Shared first path drafts stages placed files)
    (drafting : stages i = .drafting temporary) (filled : files.overwrite temporary content = .ok after)
    (mine : stage.temporary? = some temporary)
    (full : stage = .drafted temporary → ∃ bytes, drafts i = some bytes ∧ content = .ofBytes bytes) :
    Shared first path drafts (Function.update stages i stage) placed after := by
  obtain ⟨folder, mode, site, contested⟩ := shared.contested (congrArg Progress.temporary? drafting)
  exact .inr ⟨folder, mode, site, contested.overwrite site drafting filled mine full⟩

theorem rename (shared : Shared first path drafts stages placed files)
    (drafted : stages i = .drafted temporary) (renamed : files.rename temporary path = .ok after) :
    Shared first path drafts (Function.update stages i .placed) (placed ++ [i]) after := by
  obtain ⟨folder, mode, site, contested⟩ := shared.contested (congrArg Progress.temporary? drafted)
  exact .inr ⟨folder, mode, site, contested.rename site drafted renamed⟩

theorem remove (shared : Shared first path drafts stages placed files)
    (mine : (stages i).temporary? = some temporary) :
    Shared first path drafts (Function.update stages i .gone) placed
      ((files.remove temporary).toOption.getD files) := by
  obtain ⟨folder, mode, site, contested⟩ := shared.contested mine
  exact .inr ⟨folder, mode, site, contested.remove site mine⟩

/-- Before anything is in its place the path reads as at first, or as it does with the directories
above it. -/
theorem read_of_nil (shared : Shared first path drafts stages [] files) :
    (∀ bytes, files.read path = .ok bytes ↔ first.read path = .ok bytes) ∨
      ∀ bytes, files.read path = .ok bytes ↔ (first.prepared path).read path = .ok bytes := by
  rcases shared with ⟨-, -, rfl | rfl⟩ | ⟨folder, mode, site, contested⟩
  · exact .inl fun _ => .rfl
  · exact .inr fun _ => .rfl
  · exact .inr fun _ => contested.read_of_nil site

/-- Then the last call's bytes are there. -/
theorem of_last (shared : Shared first path drafts stages placed files)
    (last : placed.getLast? = some i) :
    ∃ bytes, drafts i = some bytes ∧ Written (first.prepared path) files path bytes := by
  rcases shared with ⟨-, rfl, -⟩ | ⟨folder, mode, site, contested⟩
  · cases last
  · obtain ⟨place, mode', bytes, draft, entered, -, isFile⟩ := contested.target i last
    refine ⟨bytes, draft, ⟨place, mode', entered, isFile⟩, fun other wasRead => ?_, fun direct => ?_⟩
    · exact Option.some.inj ((contested.read_of_last last wasRead).symm.trans draft)
    · obtain ⟨other, draft', wasRead⟩ := contested.exists_read_of_last last direct
      cases draft.symm.trans draft'
      exact wasRead

/-- What is read was there, or is what one of the calls has put in its place. -/
theorem read (shared : Shared first path drafts stages placed files) (wasRead : files.read path = .ok bytes) :
    (first.prepared path).read path = .ok bytes ∨ ∃ i ∈ placed, drafts i = some bytes := by
  cases last : placed.getLast? with
  | some i =>
    obtain ⟨other, draft, written⟩ := shared.of_last last
    exact .inr ⟨i, List.mem_of_getLast? last, written.only bytes wasRead ▸ draft⟩
  | none =>
    left
    obtain rfl := List.getLast?_eq_none_iff.mp last
    rcases shared.read_of_nil with same | same
    · exact read_of_extends (extends_makeDirectories first _) ((same bytes).mp wasRead)
    · exact (same bytes).mp wasRead

end Shared

end Colorization.FileSystem
