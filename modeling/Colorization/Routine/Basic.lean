import Colorization.Event
import Colorization.FileSystem.Requests

/-! Work as a tree of requests: each node asks the outside for one thing and goes on with
the answer. The same routine can be run on a file system that is a value, step by step
among others, or on a real one. -/
namespace Colorization

/-- What an in-process tokenizer does when it is asked for the tokens of a file. -/
inductive Reply where
  | tokens (capture : Capture)
  | failed (failure : Failure)
  | panicked

/-- What is left of a program that has ended. -/
structure Finished where
  status : ExitStatus
  output : ByteArray
  errors : ByteArray

inductive Channel where
  | output | errors
deriving DecidableEq

/-- What a routine may ask for. Each is one step, before and after which other routines
may take theirs. -/
inductive Request where
  | stat (path : Path)
  | openFile (path : Path)
  | read (path : Path)
  | list (path : Path)
  | makeDirectories (path : Path)
  | createTemporary (directory : Path)
  | setMode (path : Path) (mode : Nat)
  | overwrite (path : Path) (bytes : ByteArray)
  | rename (source target : Path)
  | remove (path : Path)
  | tokenize (path : Path)
  | execute (program : String) (args : List String)
  | tell (event : Event)
  | print (channel : Channel) (text : String)

def Request.Answer : Request → Type
  | .stat _ => Except SystemError Stat
  | .read _ => Except SystemError ByteArray
  | .list _ => Except SystemError (List String)
  | .createTemporary _ => Except SystemError Path
  | .openFile _ | .makeDirectories _ | .setMode _ _ | .overwrite _ _ | .rename _ _ =>
    Except SystemError Unit
  | .tokenize _ => Reply
  | .execute _ _ => Except SystemError Finished
  | .remove _ | .tell _ | .print _ _ => Unit

inductive Routine (α : Type) where
  | done (value : α)
  | panic
  | step (request : Request) (next : request.Answer → Routine α)

namespace Routine

def bind : Routine α → (α → Routine β) → Routine β
  | .done value, f => f value
  | .panic, _ => .panic
  | .step request next, f => .step request fun answer => (next answer).bind f

instance : Monad Routine where
  pure := .done
  bind := bind

@[simp] theorem pure_eq (value : α) : (pure value : Routine α) = .done value := rfl

@[simp] theorem done_bind (value : α) (f : α → Routine β) : Routine.done value >>= f = f value :=
  rfl

@[simp] theorem panic_bind (f : α → Routine β) : (Routine.panic : Routine α) >>= f = .panic :=
  rfl

@[simp] theorem step_bind (request : Request) (next : request.Answer → Routine α)
    (f : α → Routine β) :
    Routine.step request next >>= f = .step request fun answer => next answer >>= f :=
  rfl

theorem bind_done (routine : Routine α) : routine >>= Routine.done = routine := by
  induction routine with
  | done _ => rfl
  | panic => rfl
  | step request next ih => simp [ih]

theorem bind_assoc (routine : Routine α) (f : α → Routine β) (g : β → Routine γ) :
    routine >>= f >>= g = routine >>= fun value => f value >>= g := by
  induction routine with
  | done _ => rfl
  | panic => rfl
  | step request next ih => simp [ih]

instance : LawfulMonad Routine :=
  LawfulMonad.mk' Routine bind_done (fun _ _ => rfl) bind_assoc

def ask (request : Request) : Routine request.Answer := .step request .done

def stat (path : Path) : Routine (Except SystemError Stat) := ask (.stat path)

def openFile (path : Path) : Routine (Except SystemError Unit) := ask (.openFile path)

def read (path : Path) : Routine (Except SystemError ByteArray) := ask (.read path)

def list (path : Path) : Routine (Except SystemError (List String)) := ask (.list path)

def makeDirectories (path : Path) : Routine (Except SystemError Unit) :=
  ask (.makeDirectories path)

def createTemporary (directory : Path) : Routine (Except SystemError Path) :=
  ask (.createTemporary directory)

def setMode (path : Path) (mode : Nat) : Routine (Except SystemError Unit) :=
  ask (.setMode path mode)

def overwrite (path : Path) (bytes : ByteArray) : Routine (Except SystemError Unit) :=
  ask (.overwrite path bytes)

def rename (source target : Path) : Routine (Except SystemError Unit) :=
  ask (.rename source target)

def remove (path : Path) : Routine Unit := ask (.remove path)

def tokenize (path : Path) : Routine Reply := ask (.tokenize path)

def execute (program : String) (args : List String) : Routine (Except SystemError Finished) :=
  ask (.execute program args)

def tell (event : Event) : Routine Unit := ask (.tell event)

def print (text : String) : Routine Unit := ask (.print .output text)

def printError (text : String) : Routine Unit := ask (.print .errors text)

/-- The text of a file. -/
def readText (path : Path) : Routine (Except SystemError String) := do
  match ← read path with
  | .error error => return .error error
  | .ok bytes => return (Text.ofBytes bytes).mapError fun _ => .notText

end Routine

/-- A routine that may fail. -/
abbrev Action := ExceptT Failure Routine

/-- A refusal by the system is a failure at `path`. -/
def Action.on (path : Path) (routine : Routine (Except SystemError α)) : Action α :=
  ExceptT.mk do return (← routine).mapError (.system path)

end Colorization
