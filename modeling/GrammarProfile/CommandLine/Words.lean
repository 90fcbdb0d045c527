import GrammarProfile.CommandLine.Switch
import GrammarProfile.Text.Lines

/-!
Reading the words of a command line, from the first to the last. The first word that is wrong, or
that asks for help or for the version, ends it.
-/
namespace GrammarProfile.CommandLine

/-- What is wrong with a command line. -/
inductive Misuse where
  | unknownSwitch (word : String)
  | unknownCommand (word : String)
  | repeatedSwitch (s : Switch)
  | missingValue (s : Switch)
  | needlessValue (s : Switch)
  | wrongValue (s : Switch) (word : String)
  | wrongOperand (word : String)
  | extraOperand (word : String)
  | missingOperand (v : Verb)
  | missingCommand
  deriving DecidableEq, Repr

def Misuse.message : Misuse → String
  | unknownSwitch word => "unexpected argument '" ++ word ++ "'"
  | unknownCommand word => "unrecognized command '" ++ word ++ "'"
  | repeatedSwitch s => "--" ++ s.name ++ " cannot be used more than once"
  | missingValue s => "--" ++ s.name ++ " needs a value"
  | needlessValue s => "--" ++ s.name ++ " takes no value"
  | wrongValue s word => "invalid value '" ++ word ++ "' for --" ++ s.name
  | wrongOperand word => "invalid argument '" ++ word ++ "'"
  | extraOperand word => "unexpected argument '" ++ word ++ "'"
  | missingOperand v => "too few arguments for '" ++ v.name ++ "'"
  | missingCommand => "a command is needed"

/-- Why reading ends early. -/
inductive Stop where
  | help
  | version
  | misuse (m : Misuse)
  deriving DecidableEq, Repr

/-- What has been read of a command line. -/
structure Line where
  verb : Option Verb
  /-- The switches before the command, and those after it. -/
  outer : List (Switch × String)
  inner : List (Switch × String)
  operands : List String
  /-- Whether the words that follow are no switches. -/
  isLiteral : Bool
  deriving DecidableEq, Repr

namespace Line

def empty : Line := ⟨none, [], [], [], false⟩

/-- The switches that are known here. -/
def known (l : Line) : List Switch :=
  match l.verb with
  | none => sharedSwitches ++ [.version]
  | some v => v.ownSwitches ++ sharedSwitches

/-- The switches given on this side of the command. -/
def given (l : Line) : List (Switch × String) := if l.verb.isNone then l.outer else l.inner

def has (l : Line) (s : Switch) : Bool := (l.outer ++ l.inner).any fun p => p.1 == s

/-- The value of a switch. One after the command counts more than one before it. -/
def value? (l : Line) (s : Switch) : Option String :=
  match l.inner.lookup s with
  | some word => some word
  | none => l.outer.lookup s

/-- Notes a switch with its value. -/
def note (l : Line) (s : Switch) (word : String) : Except Stop Line :=
  if s == .help then .error .help
  else if s == .version then .error .version
  else if !s.isRepeatable && l.given.any (fun p => p.1 == s) then
    .error (.misuse (.repeatedSwitch s))
  else if s.operand?.any (fun o => !o.accepts word) then .error (.misuse (.wrongValue s word))
  else if l.verb.isNone then .ok { l with outer := l.outer ++ [(s, word)] }
  else .ok { l with inner := l.inner ++ [(s, word)] }

/-- Reads a switch with its full name and perhaps a value after an equals sign. The switch that is
returned waits for its value. -/
def readLong (l : Line) (body : List Char) : Except Stop (Line × Option Switch) :=
  let (name, value) :=
    match Text.splitFirst? '=' body with
    | some (name, value) => (String.ofList name, some (String.ofList value))
    | none => (String.ofList body, none)
  match l.known.find? fun s => s.name == name with
  | none => .error (.misuse (.unknownSwitch ("--" ++ name)))
  | some s =>
    match s.operand?, value with
    | some _, none => .ok (l, some s)
    | some _, some word => (l.note s word).map fun l => (l, none)
    | none, some _ => .error (.misuse (.needlessValue s))
    | none, none => (l.note s "").map fun l => (l, none)

/-- Reads letters for switches. Behind a switch that takes a value stands the value. -/
def readLetters (l : Line) : List Char → Except Stop (Line × Option Switch)
  | [] => .ok (l, none)
  | c :: rest =>
    match l.known.find? fun s => s.letter? == some c with
    | none => .error (.misuse (.unknownSwitch (String.ofList ['-', c])))
    | some s =>
      if s.operand?.isSome then
        match rest with
        | [] => .ok (l, some s)
        | '=' :: value => (l.note s (String.ofList value)).map fun l => (l, none)
        | value => (l.note s (String.ofList value)).map fun l => (l, none)
      else
        match l.note s "" with
        | .ok l => l.readLetters rest
        | .error stop => .error stop

/-- Reads a word that begins with a hyphen. -/
def readSwitches (l : Line) (word : String) : Except Stop (Line × Option Switch) :=
  match word.toList with
  | ['-', '-'] => .ok ({ l with isLiteral := true }, none)
  | '-' :: '-' :: body => l.readLong body
  | '-' :: letters => l.readLetters letters
  | _ => .ok (l, none)

/-- Reads the name of the command, or an operand. -/
def readOperand (l : Line) (word : String) : Except Stop Line :=
  match l.verb with
  | none =>
    match Verb.ofName? word with
    | some v =>
      if l.isLiteral then .error (.misuse (.extraOperand word)) else .ok { l with verb := some v }
    | none => .error (.misuse (.unknownCommand word))
  | some v =>
    match v.operands[l.operands.length]? with
    | none => .error (.misuse (.extraOperand word))
    | some o =>
      if o.accepts word then .ok { l with operands := l.operands ++ [word] }
      else .error (.misuse (.wrongOperand word))

/-- Help may be asked for about one command. -/
def readHelp : List String → Stop
  | [] => .help
  | [word] => if word == "help" || (Verb.ofName? word).isSome then .help
    else .misuse (.unknownCommand word)
  | _ :: word :: _ => .misuse (.unknownCommand word)

/-- Whether a word is a switch; a hyphen alone is not. -/
def isSwitch (word : String) : Bool := word.startsWith "-" && word != "-"

/-- Reads words after a line. `waiting` is a switch that waits for its value. -/
def readWords (l : Line) (waiting : Option Switch) : List String → Except Stop Line
  | [] =>
    match waiting with
    | some s => .error (.misuse (.missingValue s))
    | none => .ok l
  | word :: rest =>
    match waiting with
    | some s =>
      if isSwitch word then .error (.misuse (.missingValue s))
      else
        match l.note s word with
        | .ok l => l.readWords none rest
        | .error stop => .error stop
    | none =>
      if isSwitch word && !l.isLiteral then
        match l.readSwitches word with
        | .ok (l, waiting) => l.readWords waiting rest
        | .error stop => .error stop
      else if word == "help" && l.verb.isNone && !l.isLiteral then .error (readHelp rest)
      else
        match l.readOperand word with
        | .ok l => l.readWords none rest
        | .error stop => .error stop

end Line

end GrammarProfile.CommandLine
