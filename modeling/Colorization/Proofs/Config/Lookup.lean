import Colorization.Config.Loading
import Colorization.Proofs.Snapshot.Policy
import Colorization.Proofs.Snapshot.Stages

/-! Which file the settings are from. A file that is asked for must hold settings, and no other file
matters. Otherwise the first candidate that is there decides, even if it is of no use. -/
namespace Colorization

namespace Config

/-- The system's answer, to the request with this number from now on, is a text of the settings. -/
def Parses (host : Host) (before : World) (later : Nat) (path : Path) (config : Config) : Prop :=
  ∃ text : String, before.reply host later (fun files => files.read path) = .ok text.toUTF8 ∧
    ofYaml text = .ok config

/-- The path leads to something. -/
def There (host : Host) (before : World) (later : Nat) (path : Path) : Prop :=
  ∃ stat, before.reply host later (fun files => files.stat path) = .ok stat

/-- There is a file at the path, and the settings are its own or, if it has none, the defaults. -/
def StandsFor (host : Host) (before : World) (later : Nat) (path : Path) (config : Config) : Prop :=
  There host before later path ∧
    (Parses host before (later + 1) path config ∨
      (∀ other, ¬ Parses host before (later + 1) path other) ∧ config = .default)

/-- The first candidate that is there decides. -/
inductive Decides (host : Host) (before : World) : Nat → List Path → Config → Prop where
  | nothing : Decides host before later [] .default
  | there : StandsFor host before later path config → Decides host before later (path :: rest) config
  | missing : ¬ There host before later path → Decides host before (later + 1) rest config →
      Decides host before later (path :: rest) config

/-- What comes of a file, given the answer to the request for its bytes. -/
def ofAnswer (path : Path) (answer : Except SystemError ByteArray) : Except LoadFault Config := do
  let bytes ← answer.mapError (.unreadable path)
  let text ← (Text.ofBytes bytes).mapError fun _ => .unreadable path .notText
  (ofYaml text).mapError (.invalid path)

variable {host host' : Host} {before before' : World} {path : Path} {config : Config}

theorem ofAnswer_eq_ok_iff (answer : Except SystemError ByteArray) :
    ofAnswer path answer = .ok config ↔
      ∃ text : String, answer = .ok text.toUTF8 ∧ ofYaml text = .ok config := by
  simp only [ofAnswer, bind_eq_ok_iff, mapError_eq_ok_iff]
  constructor
  · rintro ⟨bytes, rfl, text, decoded, parsed⟩
    exact ⟨text, by rw [Text.eq_of_ofBytes decoded], parsed⟩
  · rintro ⟨text, rfl, parsed⟩
    exact ⟨_, rfl, text, Text.ofBytes_toUTF8 text, parsed⟩

theorem run_stat (host : Host) (path : Path) (before : World) :
    (Routine.stat path).run host before =
      (some (before.reply host 0 fun files => files.stat path), before.tick) :=
  (Routine.run_ask_iff (.stat path)).mpr (before.look_eq host fun files => files.stat path)

theorem run_readText (host : Host) (path : Path) (before : World) :
    (Routine.readText path).run host before =
      (some (before.reply host 0 (fun files => files.read path) >>= fun bytes =>
        (Text.ofBytes bytes).mapError fun _ => .notText), before.tick) := by
  have asked : (Routine.read path).run host before =
      (some (before.reply host 0 fun files => files.read path), before.tick) :=
    (Routine.run_ask_iff (.read path)).mpr (before.look_eq host fun files => files.read path)
  rw [Routine.readText, Routine.run_bind, asked]
  cases before.reply host 0 fun files => files.read path <;> rfl

/-- To load from a file is to ask once for its bytes. -/
theorem run_ofFile (host : Host) (path : Path) (before : World) : ∃ after,
    (ofFile path).run host before =
      (some (ofAnswer path (before.reply host 0 fun files => files.read path)), after) := by
  rw [ofFile, Routine.run_bind, run_readText]
  cases before.reply host 0 fun files => files.read path with
  | error error => exact ⟨_, rfl⟩
  | ok bytes =>
    cases decoded : Text.ofBytes bytes with
    | error fault =>
      simp only [ofAnswer, bind, Except.bind, mapError_ok, mapError_error, decoded]
      exact ⟨_, rfl⟩
    | ok text =>
      simp only [ofAnswer, bind, Except.bind, mapError_ok, decoded]
      cases ofYaml text <;> exact ⟨_, rfl⟩

/-- The first candidate decides if it is there, -/
theorem run_ofCandidates_there (there : There host before 0 path) (rest : List Path) : ∃ after,
    (ofCandidates (path :: rest)).run host before =
      (some ((ofAnswer path (before.reply host 1 fun files => files.read path)).toOption.getD .default),
        after) := by
  obtain ⟨stat, seen⟩ := there
  have asked : (Routine.stat path).run host before = (some (.ok stat), before.tick) :=
    seen ▸ run_stat host path before
  obtain ⟨after, loaded⟩ := run_ofFile host path before.tick
  rw [World.reply_tick] at loaded
  rw [ofCandidates, Routine.run_bind, asked]
  simp only [Routine.run_bind, loaded]
  cases ofAnswer path (before.reply host 1 fun files => files.read path) <;> exact ⟨_, rfl⟩

/-- and is passed over if it is not. -/
theorem run_ofCandidates_missing (missing : ¬ There host before 0 path) (rest : List Path) :
    (ofCandidates (path :: rest)).run host before =
      (ofCandidates rest).run host
        { before.tick with events := before.events ++ [.noConfigAt path] } := by
  cases seen : before.reply host 0 fun files => files.stat path with
  | ok stat => exact absurd ⟨stat, seen⟩ missing
  | error error =>
    have asked : (Routine.stat path).run host before = (some (.error error), before.tick) :=
      seen ▸ run_stat host path before
    rw [ofCandidates, Routine.run_bind, asked]
    rfl

/-- What is told in between does not matter for what decides. -/
theorem Decides.of_tick {later : Nat} {paths : List Path} {events : List Event}
    (decides : Decides host { before.tick with events } later paths config) :
    Decides host before (later + 1) paths config := by
  generalize isAfter : { before.tick with events } = after at decides
  have replies {α : Type} (later : Nat) (request : FileSystem → Except SystemError α) :
      after.reply host later request = before.reply host (later + 1) request := by
    rw [← World.reply_tick, ← isAfter]
    rfl
  induction decides with
  | nothing => exact .nothing
  | there stands =>
    simp only [StandsFor, There, Parses, replies] at stands
    exact .there stands
  | missing missing _ ih =>
    simp only [There, replies] at missing
    exact .missing missing ih

theorem run_ofCandidates (host : Host) (paths : List Path) (before : World) : ∃ config after,
    (ofCandidates paths).run host before = (some config, after) ∧ Decides host before 0 paths config := by
  induction paths generalizing before with
  | nil => exact ⟨.default, _, rfl, .nothing⟩
  | cons path rest ih =>
    by_cases there : There host before 0 path
    · obtain ⟨after, loaded⟩ := run_ofCandidates_there there rest
      refine ⟨_, after, loaded, .there ⟨there, ?_⟩⟩
      cases parsed : ofAnswer path (before.reply host 1 fun files => files.read path) with
      | ok config => exact .inl ((ofAnswer_eq_ok_iff _).mp parsed)
      | error fault =>
        refine .inr ⟨fun other parses => ?_, rfl⟩
        cases parsed.symm.trans ((ofAnswer_eq_ok_iff _).mpr parses)
    · rw [run_ofCandidates_missing there rest]
      obtain ⟨config, after, loaded, decides⟩ := ih _
      exact ⟨config, after, loaded, .missing there decides.of_tick⟩

theorem run_load_none (environment : Environment) (loaded :
    (ofCandidates (projectConfig :: environment.configFile?.toList)).run host before = (some config, after)) :
    (load environment none).run host before = (some (.ok config), after) := by
  rw [load, Routine.run_bind, loaded]
  rfl

/-- The file that is asked for gives the settings just if it is a text of settings, whatever other
files there are. If none is asked for there are always settings: the first candidate that is there
decides, and if that is the project's file nothing about the user's file matters. -/
theorem load_looks_up (host : Host) (before : World) (environment : Environment) :
    (∀ path, ∃ result after, (load environment (some path)).run host before = (some result, after) ∧
      (∀ config, result = .ok config ↔ Parses host before 0 path config) ∧
      ∀ host' before' environment',
        before'.reply host' 0 (fun files => files.read path) =
          before.reply host 0 (fun files => files.read path) →
        ((load environment' (some path)).run host' before').1 = some result) ∧
    ∃ config after, (load environment none).run host before = (some (.ok config), after) ∧
      Decides host before 0 (projectConfig :: environment.configFile?.toList) config ∧
      (There host before 0 projectConfig → ∀ host' before' environment',
        There host' before' 0 projectConfig →
        before'.reply host' 1 (fun files => files.read projectConfig) =
          before.reply host 1 (fun files => files.read projectConfig) →
        ((load environment' none).run host' before').1 = some (.ok config)) := by
  constructor
  · intro path
    obtain ⟨after, loaded⟩ := run_ofFile host path before
    refine ⟨_, after, loaded, fun config => ofAnswer_eq_ok_iff _, fun host' before' _ same => ?_⟩
    obtain ⟨after', loaded'⟩ := run_ofFile host' path before'
    rw [← same]
    exact congrArg Prod.fst loaded'
  · obtain ⟨config, after, loaded, decides⟩ :=
      run_ofCandidates host (projectConfig :: environment.configFile?.toList) before
    refine ⟨config, after, run_load_none environment loaded, decides, ?_⟩
    intro there host' before' environment' there' same
    obtain ⟨_, first⟩ := run_ofCandidates_there there environment.configFile?.toList
    obtain ⟨after', second⟩ := run_ofCandidates_there there' environment'.configFile?.toList
    have isConfig := Option.some.inj (congrArg Prod.fst (first.symm.trans loaded))
    rw [same, isConfig] at second
    rw [run_load_none environment' second]

/-- The project's file is no text of settings, the user's file is one. -/
def shadowed : FileSystem where
  nodes := [(["work"], .directory FileSystem.directoryMode), (["home"], .directory FileSystem.directoryMode),
    (["home", "colorsnap"], .directory FileSystem.directoryMode),
    (["work", "colorsnap.yaml"], .file 0o644 (.ofText "themes: \x7bnot: [a list")),
    (["home", "colorsnap", "config.yaml"], .file 0o644 (.ofText "themes: [Dark+]"))]
  working := ["work"]

theorem shadowed_parses : ∃ config, config.themes = ["Dark+"] ∧
    Parses (.quiet []) (.start shadowed) 2 ⟨"/home/colorsnap/config.yaml"⟩ config := by
  have own : (ofAnswer ⟨"/home/colorsnap/config.yaml"⟩ ((World.start shadowed).reply (.quiet []) 2
      fun files => files.read ⟨"/home/colorsnap/config.yaml"⟩)).toOption.map Config.themes =
      some ["Dark+"] := by decide +kernel
  cases parsed : ofAnswer ⟨"/home/colorsnap/config.yaml"⟩ ((World.start shadowed).reply (.quiet []) 2
      fun files => files.read ⟨"/home/colorsnap/config.yaml"⟩) with
  | error fault => simp [parsed, Except.toOption] at own
  | ok config =>
    rw [parsed] at own
    exact ⟨config, Option.some.inj own, (ofAnswer_eq_ok_iff _).mp parsed⟩

/-- The user's file is not asked where the project's file cannot be used. -/
theorem load_looks_up_shadowed :
    (∃ config, config.themes = ["Dark+"] ∧
      Parses (.quiet []) (.start shadowed) 2 ⟨"/home/colorsnap/config.yaml"⟩ config) ∧
    ∀ environment, ((load environment none).run (.quiet []) (.start shadowed)).1 = some (.ok .default) := by
  have there : There (.quiet []) (.start shadowed) 0 projectConfig := ⟨_, rfl⟩
  have broken : ∀ other, ¬ Parses (.quiet []) (.start shadowed) 1 projectConfig other := by
    intro other parses
    have refused : (ofAnswer projectConfig ((World.start shadowed).reply (.quiet []) 1
      fun files => files.read projectConfig)).isOk = false := by decide +kernel
    rw [(ofAnswer_eq_ok_iff _).mpr parses] at refused
    cases refused
  refine ⟨shadowed_parses, fun environment => ?_⟩
  obtain ⟨-, config, after, loaded, decides, -⟩ :=
    load_looks_up (.quiet []) (.start shadowed) environment
  rw [loaded]
  cases decides with
  | missing missing _ => exact absurd there missing
  | there stands =>
    obtain ⟨-, parses | ⟨-, rfl⟩⟩ := stands
    · exact absurd parses (broken config)
    · rfl

end Config

end Colorization
