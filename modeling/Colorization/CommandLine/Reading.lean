import Colorization.CommandLine.Arguments

/-! Reading of a command line, word by word. A value that stands as a word of its own
is accepted when the next option, value or command is, so an error in a later word may
come first. -/
namespace Colorization.CommandLine

/-- What has been read but not yet accepted. -/
inductive Pending where
  | option (opt : Opt) (values : List String)
  | words (values : List String)

structure Scan where
  given : List (Opt × String)
  words : List String
  pending : Option Pending
  /-- The option whose value must come next. -/
  awaiting : Option Opt
  /-- After `--` no word is an option. -/
  onlyWords : Bool

namespace Scan

def start : Scan := ⟨[], [], none, none, false⟩

def has (s : Scan) (opt : Opt) : Bool := s.given.any (·.1 = opt)

def accept (s : Scan) (opt : Opt) (values : List String) : Except UsageError Scan :=
  if opt.takesValue ∧ values.isEmpty then .error .invalidValue
  else if s.has opt ∧ ¬opt.repeatable then .error .repeated
  else if opt.isPath ∧ values.contains "" then .error .invalidValue
  else .ok { s with given := s.given ++ (values.map fun value => (opt, value)) }

def settle (s : Scan) : Except UsageError Scan :=
  match s.pending with
  | none => .ok s
  | some (.option opt values) => { s with pending := none }.accept opt values
  | some (.words values) =>
    if values.contains "" then .error .invalidValue
    else .ok { s with pending := none, words := s.words ++ values }

/-- An option without value. -/
def flag (s : Scan) (opt : Opt) : Except UsageError Scan := do
  let s ← s.settle
  if opt = .help then .error .showHelp
  else if opt = .version then .error .showVersion
  else Scan.accept { s with awaiting := none } opt [""]

/-- An option with its value in the same word, or with the value still to come. -/
def valued (s : Scan) (opt : Opt) (attached : Option String) : Except UsageError Scan := do
  let s ← s.settle
  match attached with
  | some value => Scan.accept { s with awaiting := none } opt [value]
  | none => return { s with pending := some (.option opt []), awaiting := some opt }

def long (verb : Option Verb) (s : Scan) (name : String) (attached : Option String) :
    Except UsageError Scan :=
  match (Opt.allowed verb).find? (·.long = name) with
  | none => .error .unknownArgument
  | some opt =>
    if opt.takesValue then s.valued opt attached
    else if attached.isSome then .error .unneededValue
    else s.flag opt

/-- The letters after a single hyphen; the first option with a value takes the rest of
them. -/
def short (verb : Option Verb) (s : Scan) : List Char → Except UsageError Scan
  | [] => .ok s
  | c :: rest =>
    match (Opt.allowed verb).find? (·.short? = some c) with
    | none => .error .unknownArgument
    | some opt =>
      if opt.takesValue then
        match rest with
        | [] => s.valued opt none
        | '=' :: value => s.valued opt (some (String.ofList value))
        | value => s.valued opt (some (String.ofList value))
      else do short verb (← s.flag opt) rest

def pendingWords (s : Scan) : List String :=
  match s.pending with
  | some (.words values) => values
  | _ => []

/-- A word that is neither an option nor a value of one. -/
def word (verb : Option Verb) (s : Scan) (text : String) : Except UsageError Scan :=
  match verb with
  | none =>
    let isCommand := text = "help" || (Verb.ofName? text).isSome
    .error (if s.onlyWords && isCommand then .unknownArgument else .unknownCommand)
  | some verb =>
    match verb.maxWords?, s.pending with
    | none, some (.words values) => .ok { s with pending := some (.words (values ++ [text])) }
    | none, _ => do return { (← s.settle) with pending := some (.words [text]) }
    | some most, _ =>
      if most ≤ s.words.length + s.pendingWords.length then .error .unknownArgument
      else do return { (← s.settle) with pending := some (.words [text]) }

/-- The value that an option waits for. -/
def value (s : Scan) (opt : Opt) (text : String) : Scan :=
  { s with pending := some (.option opt [text]), awaiting := none }

def splitEquals (cs : List Char) : String × Option String :=
  let name := cs.takeWhile (· ≠ '=')
  match cs.drop name.length with
  | [] => (String.ofList name, none)
  | _ :: value => (String.ofList name, some (String.ofList value))

def argument (verb : Option Verb) (s : Scan) (text : String) : Except UsageError Scan :=
  if s.onlyWords then s.word verb text
  else
    match s.awaiting.filter Opt.takesHyphens with
    | some opt => .ok (s.value opt text)
    | none =>
      match text.toList with
      | ['-', '-'] => .ok { s with onlyWords := true }
      | '-' :: '-' :: cs =>
        let (name, attached) := splitEquals cs
        s.long verb name attached
      | '-' :: c :: cs => s.short verb (c :: cs)
      | _ =>
        match s.awaiting with
        | some opt => .ok (s.value opt text)
        | none => s.word verb text

end Scan

/-- The words after `help`: a command at most. -/
def help : List String → UsageError
  | [] => .showHelp
  | [name] => if name = "help" ∨ (Verb.ofName? name).isSome then .showHelp else .unknownCommand
  | _ => .unknownCommand

/-- The words behind the name of a command. -/
def scanCommand (verb : Verb) (s : Scan) : List String → Except UsageError Scan
  | [] => s.settle
  | text :: rest => do scanCommand verb (← s.argument (some verb) text) rest

/-- The words in front of the name of a command, and what follows the name. -/
def scanFront (s : Scan) : List String → Except UsageError (Scan × Option (Verb × List String))
  | [] => .ok (s, none)
  | text :: rest =>
    if s.onlyWords ∨ s.awaiting.isSome then do scanFront (← s.argument none text) rest
    else if text = "help" then .error (help rest)
    else
      match Verb.ofName? text with
      | some verb => .ok (s, some (verb, rest))
      | none => do scanFront (← s.argument none text) rest

/-- The values of an option: those behind the name of the command if there are any. -/
def valuesOf (front behind : Scan) (opt : Opt) : List String :=
  let values (s : Scan) := (s.given.filter (·.1 = opt)).map (·.2)
  if behind.has opt then values behind else values front

def commandOf (verb : Verb) (behind : Scan) : Except UsageError Command :=
  let path? (opt : Opt) : Option Path :=
    (behind.given.find? (·.1 = opt)).map fun given => ⟨given.2⟩
  match verb, behind.words with
  | .colorize, [file] => .ok (.colorize ⟨file⟩ (path? .output))
  | .batch, file :: files =>
    match path? .outDir with
    | some outDir => .ok (.batch ((file :: files).map Path.mk) outDir)
    | none => .error .missingArgument
  | .fixtures, _ => .ok (.fixtures (path? .outDir))
  | .compare, [baseline, source] =>
    .ok (.compare ⟨baseline⟩ ⟨source⟩ (behind.has .update) (behind.has .json))
  | .test, _ => .ok (.test (behind.has .export))
  | .export, _ => .ok (.export (path? .outDir))
  | .config, _ => .ok .config
  | _, _ => .error .missingArgument

/-- Reads the words after the program's own name. -/
def read (words : List String) : Except UsageError Arguments := do
  let (front, command) ← scanFront .start words
  match command with
  | none =>
    let front ← front.settle
    .error (if front.given.isEmpty then .noArguments else .noCommand)
  | some (verb, rest) =>
    let behind ← scanCommand verb .start rest
    let command ← commandOf verb behind
    let front ← front.settle
    let values := valuesOf front behind
    return {
      config := (values .config).head?.map Path.mk
      tokenizer := (values .tokenizer).head?
      tokenizerArgs := values .tokenizerArg
      themes := values .theme
      compact := !(values .compact).isEmpty
      verbose := !(values .verbose).isEmpty
      command }

end Colorization.CommandLine
