import Colorization.Routine.World
import Colorization.Shell.Program
import Colorization.Shell.Script

/-! Running scripts and the programs that a tokenizer may be put together from. Files are
read through a function, so that a run can be on any file system. -/
namespace Colorization.Shell

/-- What a script knows. -/
structure Frame where
  /-- The name of the script and its arguments. -/
  name : String
  args : List String
  bindings : List (String × String)
  code : Nat

/-- The number by which a script refers to its own process. -/
def processNumber : String := "1"

namespace Frame

def value (frame : Frame) : Parameter → List String
  | .position 0 => [frame.name]
  | .position (n + 1) => frame.args[n]?.toList
  | .count => [toString frame.args.length]
  | .each => frame.args
  | .all => [" ".intercalate frame.args]
  | .process => [processNumber]
  | .status => [toString frame.code]
  | .variable name => ((frame.bindings.find? fun entry => entry.1 = name).map (·.2)).toList

end Frame

/-- Fields that are complete, and the one that is being put together. -/
structure Fields where
  complete : List (List Char)
  current : Option (List Char)

namespace Fields

def append (fields : Fields) (text : List Char) : Fields :=
  { fields with current := some (fields.current.getD [] ++ text) }

def close (fields : Fields) : Fields := ⟨fields.complete ++ fields.current.toList, none⟩

/-- Adds a text that is split at its blanks. -/
def appendSplit (fields : Fields) (text : List Char) : Fields :=
  text.foldl (fun fields c =>
    if c = ' ' ∨ c = '\t' ∨ c = '\n' then fields.close else fields.append [c]) fields

/-- Adds texts each of which is a field of its own. -/
def appendEach (fields : Fields) : List String → Fields
  | [] => fields
  | [last] => fields.append last.toList
  | first :: rest => (fields.append first.toList).close.appendEach rest

def addPiece (frame : Frame) (fields : Fields) : Piece → Fields
  | .text value => fields.append value
  | .parameter .each true => fields.appendEach (frame.value .each)
  | .parameter parameter true =>
    fields.append ("".intercalate (frame.value parameter)).toList
  | .parameter parameter false =>
    fields.appendSplit (" ".intercalate (frame.value parameter)).toList

end Fields

/-- The fields that a word stands for. -/
def expand (frame : Frame) (word : Word) : List String :=
  let fields := (word.foldl (Fields.addPiece frame) ⟨[], none⟩).close
  fields.complete.map String.ofList

/-- How a run sees files. -/
structure Access (m : Type → Type) where
  stat : Path → m (Except SystemError Stat)
  read : Path → m (Except SystemError ByteArray)

/-- What a command has done, and whether it has ended the script. -/
structure Effect where
  written : Written
  stop : Option ExitStatus

namespace Effect

def goOn (written : Written) : Effect := ⟨written, none⟩

end Effect

/-- The number of a signal given by name or number. -/
def signalNumber? (text : String) : Option Nat :=
  match text.toNat? with
  | some n => some n
  | none => (signalNames.findIdx? fun name => name = text || "SIG" ++ name = text).map (· + 1)

/-- The signals that do not end a process. -/
def harmlessSignals : List Nat := [17, 18, 23, 28]

/-- Ends the process with a signal, or another one not at all. -/
def sendSignal (signal : Option Nat) (target : String) : Effect :=
  match signal with
  | some (n + 1) =>
    if target ≠ processNumber then .goOn (.ofComplaint "kill: No such process\n" 1)
    else if harmlessSignals.contains (n + 1) then .goOn (.nothing 0)
    else ⟨.nothing 0, some (.signal (n + 1))⟩
  | some 0 => .goOn (.nothing 0)
  | none => .goOn (.ofComplaint "kill: Illegal option\n" 2)

def kill : List String → Effect
  | ["-s", signal, target] => sendSignal (signalNumber? signal) target
  | [signal, target] => sendSignal (signalNumber? (String.ofList (signal.toList.drop 1))) target
  | [target] => sendSignal (some 15) target
  | _ => .goOn (.ofComplaint "kill: Usage: kill [-s sigspec | -signum | -sigspec] pid\n" 2)

/-- Runs a command by its fields. -/
def runFields [Monad m] (access : Access m) (frame : Frame) (input : ByteArray) :
    List String → m Effect
  | [] => return .goOn (.nothing 0)
  | name :: args =>
    match name with
    | ":" | "true" => return .goOn (.nothing 0)
    | "false" => return .goOn (.nothing 1)
    | "echo" => return .goOn (echo args)
    | "printf" => return .goOn (printf args)
    | "cat" => return .goOn (← cat (fun name => access.read ⟨name⟩) input args)
    | "kill" => return kill args
    | "exit" =>
      return ⟨.nothing 0, some (.code ((args.head?.bind String.toNat?).getD frame.code % 256))⟩
    | "exec" => do
      let effect ← runFields access frame input args
      if args.isEmpty then return effect
      else return { effect with stop := some (effect.stop.getD (.code effect.written.code)) }
    | _ => return .goOn (.ofComplaint s!"{frame.name}: 1: {name}: not found\n" 127)

/-- Where a descriptor leads; `none` is nowhere. -/
structure Wiring where
  output : Option Channel
  errors : Option Channel

namespace Wiring

def get (wiring : Wiring) (descriptor : Nat) : Option Channel :=
  if descriptor = 1 then wiring.output else if descriptor = 2 then wiring.errors else none

def set (wiring : Wiring) (descriptor : Nat) (channel : Option Channel) : Wiring :=
  if descriptor = 1 then { wiring with output := channel }
  else if descriptor = 2 then { wiring with errors := channel }
  else wiring

def add (wiring : Wiring) : Redirection → Wiring
  | .input _ => wiring
  | .duplicate descriptor other => wiring.set descriptor (wiring.get other)
  | .output descriptor _ => wiring.set descriptor none

def ofCommand (command : Command) : Wiring :=
  command.redirections.foldl add ⟨some .output, some .errors⟩

/-- What arrives on a channel. -/
def arriving (wiring : Wiring) (written : Written) (channel : Channel) : ByteArray :=
  (if wiring.output = some channel then written.output else .empty) ++
    if wiring.errors = some channel then written.errors else .empty

def route (wiring : Wiring) (written : Written) : Written :=
  { written with
    output := wiring.arriving written .output, errors := wiring.arriving written .errors }

end Wiring

def Redirection.input? : Redirection → Option Word
  | .input word => some word
  | _ => none

/-- The assignment that a field is. -/
def assignment? (field : String) : Option (String × String) :=
  let name := field.toList.takeWhile isNameChar
  if name.isEmpty ∨ name.head?.any Char.isDigit then none
  else
    match field.toList.drop name.length with
    | '=' :: value => some (String.ofList name, String.ofList value)
    | _ => none

def Frame.assign (frame : Frame) (assigned : List (String × String)) : Frame :=
  { frame with bindings := assigned ++ frame.bindings }

/-- Runs a command; one of assignments alone changes what the script knows. -/
def runCommand [Monad m] (access : Access m) (frame : Frame) (input : ByteArray)
    (command : Command) : m (Effect × Frame) := do
  let fields := command.words.flatMap (expand frame)
  let assigned := (fields.takeWhile fun field => (assignment? field).isSome).filterMap assignment?
  let wiring := Wiring.ofCommand command
  let source := (command.redirections.filterMap Redirection.input?).getLast?
  let input ← match source with
    | none => pure (.ok input)
    | some word => access.read ⟨" ".intercalate (expand frame word)⟩
  match input with
  | .error error =>
    let complaint := s!"{frame.name}: 1: cannot open file: {error.text}\n"
    return (.goOn (wiring.route (.ofComplaint complaint 2)), frame)
  | .ok input =>
    if assigned.length = fields.length then
      return (.goOn (.nothing 0), frame.assign assigned.reverse)
    else
      let effect ← runFields access frame input (fields.drop assigned.length)
      return ({ effect with written := wiring.route effect.written }, frame)

/-- Runs commands of which each reads what the one before it writes. In a pipe of several,
none ends the script. -/
def runPipe [Monad m] (access : Access m) (frame : Frame) (input : ByteArray) :
    Pipeline → m (Effect × Frame)
  | [] => return (.goOn { Written.nothing frame.code with output := input }, frame)
  | [command] => runCommand access frame input command
  | command :: rest => do
    let (effect, _) ← runCommand access frame input command
    let (last, _) ← runPipe access frame effect.written.output rest
    let code := match last.stop with
      | some (.code n) => n
      | some (.signal n) => 128 + n
      | none => last.written.code
    let errors := effect.written.errors ++ last.written.errors
    return (.goOn { last.written with errors, code }, frame)

def Condition.holds (code : Nat) : Condition → Bool
  | .always => true
  | .good => code = 0
  | .bad => code ≠ 0

def runScript [Monad m] (access : Access m) (frame : Frame) : Script → m Finished
  | [] => return ⟨.code frame.code, .empty, .empty⟩
  | (condition, pipeline) :: rest => do
    if condition.holds frame.code then
      let (effect, frame) ← runPipe access frame .empty pipeline
      let written := effect.written
      match effect.stop with
      | some status => return ⟨status, written.output, written.errors⟩
      | none =>
        let after ← runScript access { frame with code := written.code } rest
        return ⟨after.status, written.output ++ after.output, written.errors ++ after.errors⟩
    else runScript access frame rest

def Written.finished (written : Written) : Finished :=
  ⟨.code written.code, written.output, written.errors⟩

def runText [Monad m] (access : Access m) (text name : String) (args : List String) :
    m Finished :=
  match Script.read? text with
  | none => return (Written.ofComplaint s!"{name}: 1: Syntax error\n" 2).finished
  | some script => runScript access ⟨name, args, [], 0⟩ script

/-- The shell by its own arguments. -/
def runShell [Monad m] (access : Access m) : List String → m Finished
  | [] => return (Written.nothing 0).finished
  | ["-c"] => return (Written.ofComplaint "sh: 0: -c requires an argument\n" 2).finished
  | "-c" :: text :: rest => runText access text (rest.headD "sh") rest.tail
  | file :: args => do
    match ← access.read ⟨file⟩ with
    | .error _ => return (Written.ofComplaint s!"sh: 0: cannot open {file}\n" 2).finished
    | .ok bytes => runText access (String.ofList (Text.lossy bytes)) file args

/-- Runs a program that is found by its name. -/
def runProgram? [Monad m] (access : Access m) (args : List String) (name : String) :
    Option (m Finished) :=
  match name with
  | "cat" => some do
    return (← cat (fun name => access.read ⟨name⟩) .empty args).finished
  | "sh" => some (runShell access args)
  | "true" => some (pure (Written.nothing 0).finished)
  | "false" => some (pure (Written.nothing 1).finished)
  | _ => none

def hasNul (text : String) : Bool := text.toList.contains '\x00'

/-- Why a file that is named by a path is not run. -/
def refusal : Except SystemError Stat → SystemError
  | .error error => error
  | .ok stat =>
    if stat.kind = .file ∧ stat.mode &&& 0o111 ≠ 0 then .execFormat else .permissionDenied

/-- Runs a program with its arguments; only programs that are named without a slash are
known. -/
def execute [Monad m] (access : Access m) (program : String) (args : List String) :
    m (Except SystemError Finished) := do
  if hasNul program || args.any hasNul then return .error .nulInArgument
  else if program.toList.contains '/' then return .error (refusal (← access.stat ⟨program⟩))
  else
    match runProgram? access args program with
    | some run => return .ok (← run)
    | none =>
      return .error (if FileSystem.isTooLong program then .nameTooLong else .noEntry)

/-- Programs on a file system that is a value. -/
def access (files : FileSystem) : Access Id where
  stat path := files.stat path
  read path := files.read path

end Colorization.Shell
