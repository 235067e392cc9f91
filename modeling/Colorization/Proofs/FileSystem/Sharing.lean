import Colorization.Proofs.FileSystem.Shelf
import Colorization.Proofs.FileSystem.Stocked

/-! Workers that save into one directory. Each request of a worker keeps what they rely on, and
changes nothing but what is its own. -/
namespace Colorization.FileSystem

variable {shelf : Shelf} {ground files after : FileSystem} {folder : Location} {mode n : Nat}
  {hands : Path → Hand} {fixture temporary : Path} {hand : Hand} {content : Content} {bytes : ByteArray}

/-- The directory is there, and the workers' files in it. -/
structure Busy (shelf : Shelf) (hands : Path → Hand) (ground files : FileSystem) (folder : Location)
    (mode : Nat) : Prop where
  allowed : shelf.ground true ground
  find : ground.find shelf.directory = .ok (folder, .directory mode)
  laid : Laid shelf ground files folder hands

/-- Either no worker has seen the directory and nothing is changed by them, or it is there. -/
structure Shelf.Inv (shelf : Shelf) (hands : Path → Hand) (files : FileSystem) : Prop where
  crew : ∀ fixture, hands fixture ≠ .away → shelf.fixtures fixture
  state : ((∀ fixture, hands fixture = .away) ∧ shelf.ground false files) ∨
    (∃ fixture, hands fixture ≠ .away) ∧ ∃ ground folder mode, Busy shelf hands ground files folder mode

namespace Busy

theorem found (busy : Busy shelf hands ground files folder mode) (sound : shelf.Sound)
    (crew : ∀ fixture, hands fixture ≠ .away → shelf.fixtures fixture) :
    files.find shelf.directory = .ok (folder, .directory mode) := by
  rw [find_congr busy.laid.working, busy.find]
  exact busy.laid.agreeOn busy.find fun fixture notAway =>
    sound.way ground folder mode busy.allowed busy.find fixture (crew fixture notAway)

/-- The names of the workers' files. -/
def names (hands : Path → Hand) (folder : Location) : Set String :=
  {name | ∃ fixture, (hands fixture).location? folder fixture = some (folder ++ [name])}

theorem stocked (busy : Busy shelf hands ground files folder mode) :
    Stocked (names hands folder) ground files := by
  obtain ⟨-, _, -, leads⟩ := find_eq_ok_iff.mp busy.find
  refine ⟨busy.laid.working, fun location => ?_⟩
  by_cases owned : ∃ fixture, (hands fixture).location? folder fixture = some location
  · obtain ⟨fixture, isOwn⟩ := owned
    have own := busy.laid.own fixture location isOwn
    have under := busy.laid.under fixture location isOwn
    have file : ∃ name mode content, location = folder ++ [name] ∧
        (hands fixture).file? = some (.file mode content) := by
      cases holds : hands fixture with
      | away | inside =>
        rw [holds] at isOwn
        cases isOwn
      | holding | placed =>
        rw [holds] at isOwn
        cases isOwn
        exact ⟨_, _, _, rfl, rfl⟩
    obtain ⟨name, mode', content, rfl, isFile⟩ := file
    refine .inr ⟨⟨⟨mode', content, own.trans isFile⟩, ⟨mode, ?_⟩, under⟩, name, ⟨fixture, isOwn⟩, ?_⟩
    · rw [List.dropLast_concat]
      exact leads.found
    · rw [List.getLast?_concat]
  · exact .inl (busy.laid.others location (not_exists.mp owned))

end Busy

namespace Shelf.Inv

/-- Whoever has seen the directory finds it. -/
theorem busy (inv : shelf.Inv hands files) (notAway : hands fixture ≠ .away) :
    ∃ ground folder mode, Busy shelf hands ground files folder mode := by
  rcases inv.state with ⟨idle, -⟩ | ⟨-, busy⟩
  · exact absurd (idle fixture) notAway
  · exact busy

theorem idle (inv : shelf.Inv hands files) (away : ∀ fixture, hands fixture = .away) :
    shelf.ground false files := by
  rcases inv.state with ⟨-, ground⟩ | ⟨⟨fixture, notAway⟩, -⟩
  · exact ground
  · exact absurd (away fixture) notAway

/-- All is in a directory, whatever the workers have made so far. -/
theorem rooted (inv : shelf.Inv hands files)
    (ground : ∀ there files, shelf.ground there files → files.Rooted) : files.Rooted := by
  rcases inv.state with ⟨-, idle⟩ | ⟨-, start, folder, mode, busy⟩
  · exact ground false files idle
  · exact busy.stocked.rooted (ground true start busy.allowed)

theorem of_busy (busy : Busy shelf hands ground files folder mode)
    (crew : ∀ fixture, hands fixture ≠ .away → shelf.fixtures fixture)
    (notAway : hands fixture ≠ .away) : shelf.Inv hands files :=
  ⟨crew, .inr ⟨⟨fixture, notAway⟩, ground, folder, mode, busy⟩⟩

theorem crew_update (inv : shelf.Inv hands files) (member : shelf.fixtures fixture) :
    ∀ other, Function.update hands fixture hand other ≠ .away → shelf.fixtures other := by
  intro other notAway
  by_cases same : other = fixture
  · exact same ▸ member
  · rw [Function.update_of_ne same] at notAway
    exact inv.crew other notAway

/-- After a change of one worker in the directory. -/
theorem update (inv : shelf.Inv hands files) (member : shelf.fixtures fixture) (notAway : hand ≠ .away)
    (busy : Busy shelf (Function.update hands fixture hand) ground after folder mode) :
    shelf.Inv (Function.update hands fixture hand) after := by
  have mine : Function.update hands fixture hand fixture ≠ .away := by
    rw [Function.update_self]
    exact notAway
  exact of_busy busy (inv.crew_update member) mine

/-- A worker makes the directory, or comes to it. -/
theorem makeDirectories (inv : shelf.Inv hands files) (sound : shelf.Sound)
    (member : shelf.fixtures fixture) (away : hands fixture = .away) :
    ((files.makeDirectories shelf.directory).1 = .ok () →
      shelf.Inv (Function.update hands fixture .inside) (files.makeDirectories shelf.directory).2) ∧
    ∀ error, (files.makeDirectories shelf.directory).1 = .error error →
      shelf.Inv hands (files.makeDirectories shelf.directory).2 := by
  rcases inv.state with ⟨idle, ground⟩ | ⟨⟨other, notAway⟩, ground, folder, mode, busy⟩
  · refine ⟨fun made => ?_, fun error refused =>
      ⟨inv.crew, .inl ⟨idle, sound.unmade files error ground refused⟩⟩⟩
    have notEmpty : shelf.directory.text ≠ "" := Path.directory_text_ne _
    obtain ⟨folder, mode, found⟩ := find_of_makeDirectories notEmpty made
    have allowed := sound.made files ground made
    generalize (files.makeDirectories shelf.directory).2 = after at found allowed ⊢
    exact inv.update member nofun ⟨allowed, found, Laid.enter (.start idle) away⟩
  · rw [makeDirectories_of_find (busy.found sound inv.crew)]
    have entered := busy.laid.enter away
    exact ⟨fun _ => inv.update member nofun ⟨busy.allowed, busy.find, entered⟩, nofun⟩

/-- A worker makes its temporary file. -/
theorem createTemporary (inv : shelf.Inv hands files) (sound : shelf.Sound)
    (inside : hands fixture = .inside)
    (created : files.createTemporary shelf.directory = .ok (temporary, after)) :
    ∃ n, temporary = temporaryPath shelf.directory n ∧
      shelf.Inv (Function.update hands fixture (.holding n fileMode (.ofBytes .empty))) after := by
  have notAway : hands fixture ≠ .away := by
    rw [inside]
    nofun
  obtain ⟨ground, folder, mode, busy⟩ := inv.busy notAway
  have free := freeNumber_free files folder
  obtain ⟨nameable, rfl, rfl⟩ := (createTemporary_eq_ok_iff (busy.found sound inv.crew)).mp created
  generalize files.freeNumber folder = n at nameable free ⊢
  obtain ⟨noOwner, noGround⟩ := busy.laid.free free
  refine ⟨n, rfl, inv.update (inv.crew fixture notAway) nofun ⟨busy.allowed, busy.find, ?_⟩⟩
  refine busy.laid.change rfl (fun location _ notMine => ?_) (fun location isOwn => ?_)
    (fun location isMine => ?_) (fun n' _ _ same => ?_) nofun
  · exact node?_set_of_ne (fun same => notMine (congrArg some same.symm)) _
  · rw [inside] at isOwn
    cases isOwn
  · cases isMine
    refine ⟨node?_set_self (by simp) _, fun mode' isFolder => ?_, fun other _ => noOwner other⟩
    rw [noGround] at isFolder
    cases isFolder
  · cases same
    exact ⟨noGround, nameable⟩

/-- A worker with a temporary file in the directory. -/
structure Holding (shelf : Shelf) (hands : Path → Hand) (ground files : FileSystem) (folder : Location)
    (fixture : Path) (n mode : Nat) (content : Content) : Prop where
  busy : ∃ mode, Busy shelf hands ground files folder mode
  member : shelf.fixtures fixture
  found : ∃ mode, files.find shelf.directory = .ok (folder, .directory mode)
  own : (hands fixture).location? folder fixture = some (folder ++ [temporaryName n])
  file : FileAt files (temporaryPath shelf.directory n) (folder ++ [temporaryName n]) mode content
  fresh : ground.node? (folder ++ [temporaryName n]) = none ∧ Nameable shelf.directory n

theorem holding (inv : shelf.Inv hands files) (sound : shelf.Sound)
    (holds : hands fixture = .holding n mode content) :
    ∃ ground folder, Holding shelf hands ground files folder fixture n mode content := by
  have notAway : hands fixture ≠ .away := by
    rw [holds]
    nofun
  obtain ⟨ground, folder, mode₀, busy⟩ := inv.busy notAway
  have found := busy.found sound inv.crew
  have fresh := busy.laid.fresh fixture n mode content holds
  have own : (hands fixture).location? folder fixture = some (folder ++ [temporaryName n]) := by
    rw [holds]
    rfl
  have there := busy.laid.own fixture _ own
  rw [holds] at there
  exact ⟨ground, folder, ⟨mode₀, busy⟩, inv.crew fixture notAway, ⟨mode₀, found⟩, own,
    ⟨entry?_eq_of_nameable found fresh.2, there⟩, fresh⟩

/-- The temporary file of a worker is its own to fill. -/
theorem fileAt (inv : shelf.Inv hands files) (sound : shelf.Sound)
    (holds : hands fixture = .holding n mode content) :
    ∃ location, FileAt files (temporaryPath shelf.directory n) location mode content ∧
      ∀ mode' content', shelf.Inv (Function.update hands fixture (.holding n mode' content'))
        (files.set location (.file mode' content')) := by
  obtain ⟨ground, folder, held⟩ := inv.holding sound holds
  obtain ⟨mode₀, busy⟩ := held.busy
  refine ⟨_, held.file, fun mode' content' => inv.update held.member nofun ⟨busy.allowed, busy.find, ?_⟩⟩
  refine busy.laid.change rfl (fun location _ notMine => ?_) (fun location isOwn notMine => ?_)
    (fun location isMine => ?_) (fun n' _ _ same => ?_) nofun
  · exact node?_set_of_ne (fun same => notMine (congrArg some same.symm)) _
  · exact absurd (held.own.symm.trans isOwn) notMine
  · cases isMine
    refine ⟨node?_set_self (by simp) _, busy.laid.under fixture _ held.own, fun other differs isOwn => ?_⟩
    exact differs (busy.laid.single other fixture _ isOwn held.own)
  · cases same
    exact held.fresh

/-- A worker takes its temporary file away. -/
theorem remove (inv : shelf.Inv hands files) (sound : shelf.Sound)
    (holds : hands fixture = .holding n mode content) :
    ∃ after, files.remove (temporaryPath shelf.directory n) = .ok after ∧
      shelf.Inv (Function.update hands fixture .inside) after := by
  obtain ⟨ground, folder, held⟩ := inv.holding sound holds
  obtain ⟨mode₀, busy⟩ := held.busy
  refine ⟨files.erase (folder ++ [temporaryName n]), held.file.remove, ?_⟩
  refine inv.update held.member nofun ⟨busy.allowed, busy.find, ?_⟩
  refine busy.laid.change rfl (fun location notOwn _ => ?_) (fun location isOwn _ => ?_) nofun nofun nofun
  · exact node?_erase_of_ne (fun same => notOwn (held.own.trans (congrArg some same.symm)))
  · cases held.own.symm.trans isOwn
    rw [node?_erase_self (by simp), held.fresh.1]

/-- No one else has a file in the place of a worker's. -/
theorem notOther (inv : shelf.Inv hands files) (sound : shelf.Sound) (member : shelf.fixtures fixture)
    (differs : other ≠ fixture) (folder : Location) :
    (hands other).location? folder other ≠ some (folder ++ [fixture.baselineName]) := by
  intro isOwn
  cases holds : hands other with
  | away | inside =>
    rw [holds] at isOwn
    cases isOwn
  | holding n =>
    rw [holds] at isOwn
    exact temporaryName_ne_baselineName n fixture (by simpa [Hand.location?] using isOwn)
  | placed =>
    rw [holds] at isOwn
    have member' := inv.crew other (by rw [holds]; nofun)
    exact differs (sound.distinct other fixture member' member (by simpa [Hand.location?] using isOwn))

/-- Until a worker's file is in its place, that is as it would be without the workers. -/
theorem node?_place (inv : shelf.Inv hands files) (sound : shelf.Sound)
    (busy : Busy shelf hands ground files folder mode) (member : shelf.fixtures fixture)
    (notPlaced : ∀ mode bytes, hands fixture ≠ .placed mode bytes) :
    files.node? (folder ++ [fixture.baselineName]) = ground.node? (folder ++ [fixture.baselineName]) := by
  refine busy.laid.others _ fun other isOwn => ?_
  by_cases same : other = fixture
  · subst same
    cases holds : hands other with
    | away | inside =>
      rw [holds] at isOwn
      cases isOwn
    | holding n =>
      rw [holds] at isOwn
      exact temporaryName_ne_baselineName n other (by simpa [Hand.location?] using isOwn)
    | placed mode bytes => exact notPlaced mode bytes holds
  · exact inv.notOther sound member same folder isOwn

/-- A worker's file takes its own place. -/
theorem rename (inv : shelf.Inv hands files) (sound : shelf.Sound)
    (holds : hands fixture = .holding n mode (.ofBytes bytes))
    (renamed : files.rename (temporaryPath shelf.directory n) (shelf.results.baseline fixture) = .ok after) :
    shelf.Inv (Function.update hands fixture (.placed mode bytes)) after := by
  obtain ⟨ground, folder, held⟩ := inv.holding sound holds
  obtain ⟨mode₀, busy⟩ := held.busy
  obtain ⟨mode₁, found⟩ := held.found
  obtain ⟨name, named⟩ := sound.named fixture held.member
  obtain ⟨place, entered, notFolder, rfl⟩ := held.file.rename renamed
  obtain ⟨checked, short, rfl⟩ := Shelf.entry_baseline found named entered
  have notOwn : folder ++ [fixture.baselineName] ≠ folder ++ [temporaryName n] := by
    simpa using (temporaryName_ne_baselineName n fixture).symm
  refine inv.update held.member nofun ⟨busy.allowed, busy.find, ?_⟩
  refine busy.laid.change rfl (fun location notOwn' notMine => ?_) (fun location isOwn notMine => ?_)
    (fun location isMine => ?_) nofun (fun _ _ _ => ⟨checked, short⟩)
  · rw [node?_set_of_ne (fun same => notMine (congrArg some same.symm)),
      node?_erase_of_ne (fun same => notOwn' (held.own.trans (congrArg some same.symm)))]
  · cases held.own.symm.trans isOwn
    rw [node?_set_of_ne notOwn.symm, node?_erase_self (by simp), held.fresh.1]
  · cases isMine
    refine ⟨node?_set_self (by simp) _, fun mode' isFolder => notFolder mode' ?_, fun other differs =>
      inv.notOther sound held.member differs folder⟩
    rw [inv.node?_place sound busy held.member (by rw [holds]; nofun), isFolder]

/-- What would keep the file from its place is not of the workers' making. -/
theorem obstacle?_eq (inv : shelf.Inv hands files) (sound : shelf.Sound)
    (busy : Busy shelf hands ground files folder mode) (member : shelf.fixtures fixture)
    (notPlaced : ∀ mode bytes, hands fixture ≠ .placed mode bytes) :
    files.obstacle? (shelf.results.baseline fixture) = ground.obstacle? (shelf.results.baseline fixture) := by
  obtain ⟨name, named⟩ := sound.named fixture member
  have place := inv.node?_place sound busy member notPlaced
  unfold obstacle?
  rw [Shelf.entry?_baseline (busy.found sound inv.crew) named, Shelf.entry?_baseline busy.find named]
  cases check (shelf.results.baseline fixture) with
  | error => rfl
  | ok =>
    cases isTooLong fixture.baselineName with
    | true => rfl
    | false =>
      simp only [bind, Except.bind, pure, Except.pure, Bool.false_eq_true, if_false, mapError_ok, place]

/-- A file in its place is what its path leads to. -/
theorem find_placed (inv : shelf.Inv hands files) (sound : shelf.Sound)
    (busy : Busy shelf hands ground files folder mode) (placed : hands fixture = .placed mode' bytes) :
    files.find (shelf.results.baseline fixture) =
      .ok (folder ++ [fixture.baselineName], .file mode' (.ofBytes bytes)) := by
  have member := inv.crew fixture (by rw [placed]; nofun)
  obtain ⟨name, named⟩ := sound.named fixture member
  obtain ⟨checked, short⟩ := busy.laid.kept fixture mode' bytes placed
  have there := busy.laid.own fixture (folder ++ [fixture.baselineName]) (by rw [placed]; rfl)
  rw [placed] at there
  refine find_of_entry? ?_ there nofun
  simp [Shelf.entry?_baseline (busy.found sound inv.crew) named, checked, short, bind, Except.bind, pure,
    Except.pure]

/-- There are no more temporary files than things before and workers. -/
theorem freeNumber_le (inv : shelf.Inv hands files) (busy : Busy shelf hands ground files folder mode)
    {fixtures : List Path} (crew : ∀ fixture, shelf.fixtures fixture → fixture ∈ fixtures) :
    files.freeNumber folder ≤ ground.nodes.length + fixtures.length := by
  have subset : (List.range (files.freeNumber folder)).map (fun n => folder ++ [temporaryName n]) ⊆
      ground.nodes.map (·.1) ++ fixtures.filterMap fun fixture => (hands fixture).location? folder fixture := by
    intro location member
    obtain ⟨n, less, rfl⟩ := List.mem_map.mp member
    have taken := taken_of_lt_freeNumber (List.mem_range.mp less)
    rw [List.mem_append, List.mem_filterMap]
    by_cases owned : ∃ fixture, (hands fixture).location? folder fixture = some (folder ++ [temporaryName n])
    · obtain ⟨fixture, isOwn⟩ := owned
      have notAway : hands fixture ≠ .away := by
        intro away
        rw [away] at isOwn
        cases isOwn
      exact .inr ⟨fixture, crew fixture (inv.crew fixture notAway), isOwn⟩
    · rw [busy.laid.others _ (not_exists.mp owned)] at taken
      obtain ⟨node, there⟩ := Option.ne_none_iff_exists'.mp taken
      obtain ⟨entry, inside, same⟩ := mem_of_node? there (by simp)
      exact .inl (List.mem_map.mpr ⟨entry, inside, same⟩)
  have distinct : ((List.range (files.freeNumber folder)).map
      (fun n => folder ++ [temporaryName n])).Nodup := by
    apply List.Nodup.map _ List.nodup_range
    intro n m same
    exact temporaryName_injective (by simpa using same)
  have count := (distinct.subperm subset).length_le
  have most := List.length_filterMap_le (fun fixture => (hands fixture).location? folder fixture) fixtures
  simp only [List.length_map, List.length_range, List.length_append] at count
  omega

end Shelf.Inv

end Colorization.FileSystem
