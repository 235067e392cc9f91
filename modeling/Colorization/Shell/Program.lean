import Colorization.Failure

/-! What the few known programs print. A program has written some bytes on each channel
when it ends. -/
namespace Colorization.Shell

/-- What has been written so far, and the last exit code. -/
structure Written where
  output : ByteArray
  errors : ByteArray
  code : Nat

namespace Written

def nothing (code : Nat) : Written := ⟨.empty, .empty, code⟩

def ofOutput (bytes : ByteArray) : Written := ⟨bytes, .empty, 0⟩

def ofComplaint (text : String) (code : Nat) : Written := ⟨.empty, text.toUTF8, code⟩

end Written

abbrev Bytes := List UInt8

def textBytes (text : List Char) : Bytes := (String.ofList text).toUTF8.toList

def toArray (bytes : Bytes) : ByteArray := ⟨bytes.toArray⟩

def isOctal (c : Char) : Bool := '0' ≤ c && c ≤ '7'

def octalByte (digits : List Char) : UInt8 :=
  UInt8.ofNat (digits.foldl (fun n c => 8 * n + (c.toNat - 48)) 0)

/-- The characters that a backslash stands before. -/
def escape? : Char → Option UInt8
  | 'a' => some 7
  | 'b' => some 8
  | 'f' => some 12
  | 'n' => some 10
  | 'r' => some 13
  | 't' => some 9
  | 'v' => some 11
  | '\\' => some 92
  | _ => none

/-- The octal digits at the beginning, up to `most`. -/
def octalDigits (most : Nat) (cs : List Char) : List Char := (cs.take most).takeWhile isOctal

/-- A text with its escapes, in which octal numbers begin with `0`; `false` where `\c`
ends all output. -/
def unescape : List Char → Bytes × Bool
  | [] => ([], true)
  | '\\' :: 'c' :: _ => ([], false)
  | '\\' :: '0' :: rest =>
    let digits := octalDigits 3 rest
    let (bytes, going) := unescape (rest.drop digits.length)
    (octalByte digits :: bytes, going)
  | '\\' :: c :: rest =>
    let (bytes, going) := unescape rest
    match escape? c with
    | some byte => (byte :: bytes, going)
    | none => (textBytes ['\\', c] ++ bytes, going)
  | c :: rest =>
    let (bytes, going) := unescape rest
    (textBytes [c] ++ bytes, going)
termination_by cs => cs.length
decreasing_by all_goals grind

def echo (args : List String) : Written :=
  let (words, line) := match args with
    | "-n" :: rest => (rest, false)
    | _ => (args, true)
  let (bytes, going) := unescape (" ".intercalate words).toList
  .ofOutput (toArray (bytes ++ if going && line then [10] else []))

/-- One pass over a format: what it writes, the arguments that it leaves, and whether it
used any. -/
def printfPass (used : Bool) (args : List String) : List Char → Bytes × List String × Bool
  | [] => ([], args, used)
  | '%' :: '%' :: rest =>
    let (bytes, left) := printfPass used args rest
    (37 :: bytes, left)
  | '%' :: c :: rest =>
    let arg := args.headD ""
    let field : Bytes :=
      if c = 'b' then (unescape arg.toList).1
      else if c = 'd' ∨ c = 'i' then textBytes (toString (arg.toInt?.getD 0)).toList
      else if c = 'c' then textBytes (arg.toList.take 1)
      else textBytes arg.toList
    let (bytes, left) := printfPass true args.tail rest
    (field ++ bytes, left)
  | '\\' :: c :: rest =>
    if isOctal c then
      let digits := octalDigits 3 (c :: rest)
      let (bytes, left) := printfPass used args (rest.drop (digits.length - 1))
      (octalByte digits :: bytes, left)
    else
      let (bytes, left) := printfPass used args rest
      match escape? c with
      | some byte => (byte :: bytes, left)
      | none => ((if c = '"' then [34] else textBytes ['\\', c]) ++ bytes, left)
  | c :: rest =>
    let (bytes, left) := printfPass used args rest
    (textBytes [c] ++ bytes, left)
termination_by cs => cs.length
decreasing_by all_goals grind

/-- The format is gone through until no arguments are left; `passes` bounds how often. -/
def printfPasses (format : List Char) : Nat → List String → Bytes
  | 0, _ => []
  | passes + 1, args =>
    let (bytes, left, used) := printfPass false args format
    if used && !left.isEmpty then bytes ++ printfPasses format passes left else bytes

def printf : List String → Written
  | [] => .ofComplaint "printf: usage: printf format [arg ...]\n" 2
  | format :: args => .ofOutput (toArray (printfPasses format.toList (args.length + 1) args))

/-- The operands of `cat`, or the option that it does not have. -/
def catOperands : List String → Except Char (List String)
  | [] => .ok []
  | "--" :: rest => .ok rest
  | arg :: rest =>
    match arg.toList with
    | '-' :: c :: options =>
      match (c :: options).find? fun c => !"AbeEnstTuv".toList.contains c with
      | some c => .error c
      | none => catOperands rest
    | _ => (catOperands rest).map (arg :: ·)

/-- Writes out files one after the other; `-` is the input. -/
def catFiles [Monad m] (read : String → m (Except SystemError ByteArray)) (input : ByteArray) :
    List String → m Written
  | [] => return .nothing 0
  | name :: rest => do
    let bytes ← if name = "-" then pure (.ok input) else read name
    let after ← catFiles read input rest
    match bytes with
    | .ok bytes => return { after with output := bytes ++ after.output }
    | .error error =>
      let complaint := s!"cat: {name}: {error.text}\n"
      return { after with errors := complaint.toUTF8 ++ after.errors, code := 1 }

def cat [Monad m] (read : String → m (Except SystemError ByteArray)) (input : ByteArray)
    (args : List String) : m Written :=
  match catOperands args with
  | .error c =>
    return .ofComplaint
      s!"cat: invalid option -- '{c}'\nTry 'cat --help' for more information.\n" 1
  | .ok [] => return .ofOutput input
  | .ok names => catFiles read input names

end Colorization.Shell
