import Colorization.Routine.Basic

/-! Running routines on a file system that is a value. The host answers for tokenizers and
programs, and may let any request to the file system fail; removing a file that is in the
way is the one request that never does. -/
namespace Colorization

/-- A request that the system does not carry out. Of the bytes that were to be put into a
file the first `written` are there. -/
structure Breakdown where
  error : SystemError
  written : Nat

/-- What the world does by itself. -/
structure Host where
  tokenize : Path → Reply
  execute : FileSystem → String → List String → Except SystemError Finished
  /-- Whether the request with this number, of those to the file system, breaks down. -/
  breakdown? : Nat → Option Breakdown
  /-- How many workers go on at a time, besides the first. -/
  helpers : Nat

structure World where
  files : FileSystem
  /-- The number of requests to the file system so far. -/
  clock : Nat
  /-- How often the in-process tokenizer was asked. -/
  asked : Nat
  events : List Event
  printed : List (Channel × String)

namespace World

def start (files : FileSystem) : World := ⟨files, 0, 0, [], []⟩

def tick (world : World) : World := { world with clock := world.clock + 1 }

/-- Asks for something that changes nothing. -/
def look (world : World) (host : Host) (request : FileSystem → Except SystemError α) :
    Except SystemError α × World :=
  match host.breakdown? world.clock with
  | some breakdown => (.error breakdown.error, world.tick)
  | none => (request world.files, world.tick)

/-- Asks for a change, which is made if it succeeds. -/
def change (world : World) (host : Host) (request : FileSystem → Except SystemError FileSystem) :
    Except SystemError Unit × World :=
  match host.breakdown? world.clock with
  | some breakdown => (.error breakdown.error, world.tick)
  | none =>
    match request world.files with
    | .error error => (.error error, world.tick)
    | .ok files => (.ok (), { world.tick with files })

def makeDirectories (world : World) (host : Host) (path : Path) :
    Except SystemError Unit × World :=
  match host.breakdown? world.clock with
  | some breakdown => (.error breakdown.error, world.tick)
  | none =>
    let (result, files) := world.files.makeDirectories path
    (result, { world.tick with files })

def createTemporary (world : World) (host : Host) (directory : Path) :
    Except SystemError Path × World :=
  match host.breakdown? world.clock with
  | some breakdown => (.error breakdown.error, world.tick)
  | none =>
    match world.files.createTemporary directory with
    | .error error => (.error error, world.tick)
    | .ok (path, files) => (.ok path, { world.tick with files })

def overwrite (world : World) (host : Host) (path : Path) (bytes : ByteArray) :
    Except SystemError Unit × World :=
  match host.breakdown? world.clock with
  | none => world.change host fun files => files.overwrite path (.ofBytes bytes)
  | some breakdown =>
    let begun := world.files.overwrite path (.ofBytes (bytes.extract 0 breakdown.written))
    (.error breakdown.error, { world.tick with files := begun.toOption.getD world.files })

end World

/-- The answer to a request, and the world after it. -/
def Request.perform (host : Host) : (request : Request) → World → request.Answer × World
  | .stat path, world => world.look host fun files => files.stat path
  | .openFile path, world => world.look host fun files => (files.find path).map fun _ => ()
  | .read path, world => world.look host fun files => files.read path
  | .list path, world => world.look host fun files => files.list path
  | .makeDirectories path, world => world.makeDirectories host path
  | .createTemporary directory, world => world.createTemporary host directory
  | .setMode path mode, world => world.change host fun files => files.setMode path mode
  | .overwrite path bytes, world => world.overwrite host path bytes
  | .rename source target, world => world.change host fun files => files.rename source target
  | .remove path, world =>
    ((), { world with files := (world.files.remove path).toOption.getD world.files })
  | .tokenize path, world => (host.tokenize path, { world with asked := world.asked + 1 })
  | .execute program args, world => (host.execute world.files program args, world)
  | .tell event, world => ((), { world with events := world.events ++ [event] })
  | .print channel text, world => ((), { world with printed := world.printed ++ [(channel, text)] })

namespace Routine

/-- Runs to the end, without others; `none` is a panic. -/
def run (host : Host) : Routine α → World → Option α × World
  | .done value, world => (some value, world)
  | .panic, world => (none, world)
  | .step request next, world =>
    let (answer, world) := request.perform host world
    (next answer).run host world

theorem run_bind (host : Host) (routine : Routine α) (f : α → Routine β) (world : World) :
    (routine >>= f).run host world =
      match routine.run host world with
      | (some value, world) => (f value).run host world
      | (none, world) => (none, world) := by
  induction routine generalizing world with
  | done _ => rfl
  | panic => rfl
  | step request next ih => exact ih _ _

end Routine

end Colorization
