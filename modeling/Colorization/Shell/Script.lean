/-! Scripts of a small shell: simple commands with quoting, parameters, pipes and
redirections, joined by `;`, `&&` and `||`. -/
namespace Colorization.Shell

inductive Parameter where
  | position (n : Nat)
  | count
  /-- All arguments, each a word of its own. -/
  | each
  /-- All arguments in one. -/
  | all
  | process
  | status
  | variable (name : String)
deriving DecidableEq

/-- A part of a word. What is quoted is not split at blanks. -/
inductive Piece where
  | text (value : List Char)
  | parameter (parameter : Parameter) (quoted : Bool)

abbrev Word := List Piece

inductive Lexeme where
  | word (word : Word)
  | semicolon | and | or | pipe
  | input
  /-- What goes to one descriptor is to go where another does. -/
  | duplicate (descriptor other : Nat)
  /-- What goes to a descriptor is to go to the file named by the next word. -/
  | output (descriptor : Nat)

/-- Whether quotation marks are open. -/
inductive Quoting where
  | none | single | double
deriving DecidableEq

def isNameChar (c : Char) : Bool := c.isAlphanum || c = '_'

def Parameter.ofName (name : List Char) : Parameter :=
  if name.all Char.isDigit then .position ((String.ofList name).toNat?.getD 0)
  else .variable (String.ofList name)

/-- The parameter that a dollar sign begins, and the number of characters after the
sign. -/
def Parameter.read? : List Char → Option (Parameter × Nat)
  | [] => none
  | c :: rest =>
    if c = '#' then some (.count, 1)
    else if c = '@' then some (.each, 1)
    else if c = '*' then some (.all, 1)
    else if c = '$' then some (.process, 1)
    else if c = '?' then some (.status, 1)
    else if c.isDigit then some (.position (c.toNat - 48), 1)
    else if c = '\x7b' then
      let name := rest.takeWhile isNameChar
      if !name.isEmpty && rest[name.length]? = some '\x7d' then
        some (Parameter.ofName name, name.length + 2)
      else none
    else
      let name := (c :: rest).takeWhile isNameChar
      if name.isEmpty then none else some (Parameter.ofName name, name.length)

/-- The word that is being read; `none` between words. -/
abbrev Draft := Option Word

namespace Draft

def push (draft : Draft) (piece : Piece) : Draft := some (draft.getD [] ++ [piece])

def close : Draft → List Lexeme
  | some word => [.word word]
  | none => []

/-- The descriptor that a redirection names, if the word before it is a digit. -/
def descriptor? : Draft → Option Nat
  | some [.text [c]] => if c.isDigit then some (c.toNat - 48) else none
  | _ => none

end Draft

/-- A redirection after the sign `>`: the descriptor that is to be copied, if any, and the
number of characters up to its end. -/
def duplicate? : List Char → Option (Nat × Nat)
  | '&' :: c :: _ => if c.isDigit then some (c.toNat - 48, 2) else none
  | _ => none

/-- The lexemes of a script; quotation marks must be closed. -/
def lexemes (quoting : Quoting) (draft : Draft) : List Char → Option (List Lexeme)
  | [] => if quoting = .none then some draft.close else none
  | c :: rest =>
    match quoting with
    | .single =>
      if c = '\x27' then lexemes .none draft rest
      else lexemes .single (draft.push (.text [c])) rest
    | _ =>
      if c = '$' then
        match Parameter.read? rest with
        | some (parameter, length) =>
          lexemes quoting (draft.push (.parameter parameter (quoting = .double)))
            (rest.drop length)
        | none => lexemes quoting (draft.push (.text ['$'])) rest
      else if c = '\\' then
        match rest with
        | [] => lexemes quoting (draft.push (.text ['\\'])) []
        | d :: rest =>
          if d = '\n' then lexemes quoting draft rest
          else if quoting = .none ∨ d = '$' ∨ d = '\x60' ∨ d = '"' ∨ d = '\\' then
            lexemes quoting (draft.push (.text [d])) rest
          else lexemes quoting (draft.push (.text ['\\', d])) rest
      else if quoting = .double then
        if c = '"' then lexemes .none draft rest
        else lexemes .double (draft.push (.text [c])) rest
      else if c = '\x27' then lexemes .single (draft.push (.text [])) rest
      else if c = '"' then lexemes .double (draft.push (.text [])) rest
      else if c = ' ' ∨ c = '\t' then (lexemes .none none rest).map (draft.close ++ ·)
      else if c = ';' ∨ c = '\n' then
        (lexemes .none none rest).map (draft.close ++ .semicolon :: ·)
      else if c = '#' ∧ draft.isNone then
        lexemes .none none (rest.drop (rest.takeWhile (· ≠ '\n')).length)
      else if c = '&' then
        if rest.head? = some '&' then
          (lexemes .none none (rest.drop 1)).map (draft.close ++ .and :: ·)
        else none
      else if c = '|' then
        if rest.head? = some '|' then
          (lexemes .none none (rest.drop 1)).map (draft.close ++ .or :: ·)
        else (lexemes .none none rest).map (draft.close ++ .pipe :: ·)
      else if c = '<' then (lexemes .none none rest).map (draft.close ++ .input :: ·)
      else if c = '>' then
        let before := if draft.descriptor?.isSome then [] else draft.close
        let descriptor := draft.descriptor?.getD 1
        match duplicate? rest with
        | some (other, length) =>
          (lexemes .none none (rest.drop length)).map
            (before ++ .duplicate descriptor other :: ·)
        | none => (lexemes .none none rest).map (before ++ .output descriptor :: ·)
      else lexemes .none (draft.push (.text [c])) rest
termination_by cs => cs.length
decreasing_by all_goals grind

inductive Redirection where
  | input (word : Word)
  | duplicate (descriptor other : Nat)
  | output (descriptor : Nat) (word : Word)

structure Command where
  words : List Word
  redirections : List Redirection

abbrev Pipeline := List Command

/-- When a pipeline is run, given how the one before it ended. -/
inductive Condition where
  | always | good | bad
deriving DecidableEq

abbrev Script := List (Condition × Pipeline)

/-- What has been read of a script. -/
structure Reading where
  script : Script
  condition : Condition
  pipeline : Pipeline
  command : Command

namespace Reading

def start : Reading := ⟨[], .always, [], ⟨[], []⟩⟩

def isBlank (reading : Reading) : Bool :=
  reading.command.words.isEmpty && reading.command.redirections.isEmpty

def addWord (reading : Reading) (word : Word) : Reading :=
  { reading with command := { reading.command with words := reading.command.words ++ [word] } }

def redirect (reading : Reading) (redirection : Redirection) : Reading :=
  let redirections := reading.command.redirections ++ [redirection]
  { reading with command := { reading.command with redirections } }

/-- A pipe needs a command before it. -/
def pipe (reading : Reading) : Option Reading :=
  if reading.isBlank then none
  else
    some { reading with pipeline := reading.pipeline ++ [reading.command], command := ⟨[], []⟩ }

/-- Ends a pipeline. Only between semicolons may there be none. -/
def finish (reading : Reading) (next : Condition) : Option Reading :=
  if reading.isBlank then
    if reading.pipeline.isEmpty && reading.condition = .always && next = .always then
      some reading
    else none
  else
    let pipeline := reading.pipeline ++ [reading.command]
    some ⟨reading.script ++ [(reading.condition, pipeline)], next, [], ⟨[], []⟩⟩

def continue? (reading : Reading) : List Lexeme → Option Script
  | [] => (reading.finish .always).map (·.script)
  | .word word :: rest => (reading.addWord word).continue? rest
  | .semicolon :: rest => (reading.finish .always).bind fun reading => reading.continue? rest
  | .and :: rest => (reading.finish .good).bind fun reading => reading.continue? rest
  | .or :: rest => (reading.finish .bad).bind fun reading => reading.continue? rest
  | .pipe :: rest => reading.pipe.bind fun reading => reading.continue? rest
  | .duplicate descriptor other :: rest =>
    (reading.redirect (.duplicate descriptor other)).continue? rest
  | .input :: .word word :: rest => (reading.redirect (.input word)).continue? rest
  | .output descriptor :: .word word :: rest =>
    (reading.redirect (.output descriptor word)).continue? rest
  | _ => none

end Reading

def Script.read? (text : String) : Option Script := do
  Reading.start.continue? (← lexemes .none none text.toList)

end Colorization.Shell
