import ForgeChores.Text

/-!
# ForgeChores.CommandLine.Grammar

Options and positional arguments in a list of words.

An option is written `--name value`, `--name=value`, `-n value`, `-nvalue` or `-n=value`; flags may
share one dash. After `--` every word is positional. An option stands once. Its value is looked at
when the next option or positional argument is met, so that of two faults the earlier one counts,
but a word that is no option at all is reported at once.

A name of a command ends a list of words; what follows belongs to the command.
-/

namespace ForgeChores
namespace CommandLine

/-- Why words do not make a call, or what they ask for instead of one. -/
inductive UsageError where
  /-- Help on a command, or on the program if the name is empty. -/
  | helpRequested (command : String)
  | versionRequested
  /-- There are no words at all. -/
  | nothingGiven
  | missingCommand
  | unknownCommand
  | unknownArgument
  | missingArgument
  | missingValue
  | invalidValue
  | repeatedOption
  /-- A flag with a value. -/
  | unexpectedValue
deriving DecidableEq

/-- Whether it was asked for; everything else is a mistake. -/
def UsageError.isRequest : UsageError → Bool
  | .helpRequested _ => true
  | .versionRequested => true
  | _ => false

/-- The exit code of a program that was called like this. -/
def UsageError.exitCode (e : UsageError) : Nat := if e.isRequest then 0 else 2

/-- What an option does. -/
inductive OptionKind where
  | flag
  /-- Takes a value, which is checked. -/
  | value (check : String → Except UsageError Unit)
  /-- Ends the reading. -/
  | request (e : UsageError)

structure OptionSpec where
  name : String
  letter : Option Char
  kind : OptionKind

structure Grammar where
  options : List OptionSpec
  /-- How many positional arguments there may be. -/
  positionals : Nat
  commands : List String

/-- The name under which a command explains others. -/
def helpCommand : String := "help"

/-! ## What has been read -/

/-- An option whose value has not been looked at, or not even been read. -/
structure Pending where
  spec : OptionSpec
  value : Option String

structure Scan where
  /-- Options and their values; a flag has an empty one. -/
  given : List (String × String)
  positionals : List String
  pending : Option Pending
  /-- Whether `--` has been met. -/
  onlyPositionals : Bool

namespace Scan

def start : Scan := ⟨[], [], none, false⟩

def isGiven (s : Scan) (name : String) : Bool := s.given.any (·.1 = name)

/-- Takes an option with its value. -/
def accept (s : Scan) (spec : OptionSpec) (value : String) : Except UsageError Scan :=
  match spec.kind with
  | .request e => .error e
  | .flag =>
    if s.isGiven spec.name then .error .repeatedOption
    else .ok { s with given := s.given ++ [(spec.name, "")] }
  | .value check =>
    if s.isGiven spec.name then .error .repeatedOption
    else
      match check value with
      | .ok () => .ok { s with given := s.given ++ [(spec.name, value)] }
      | .error e => .error e

/-- Looks at the value that is still open. -/
def settle (s : Scan) : Except UsageError Scan :=
  match s.pending with
  | none => .ok s
  | some ⟨_, none⟩ => .error .missingValue
  | some ⟨spec, some value⟩ => { s with pending := none }.accept spec value

/-- Meets an option, with a value if one is attached. -/
def meet (s : Scan) (spec : OptionSpec) (attached : Option String) : Except UsageError Scan :=
  match spec.kind, attached with
  | .value _, none => do return { ← s.settle with pending := some ⟨spec, none⟩ }
  | _, _ => do (← s.settle).accept spec (attached.getD "")

/-- A word that starts with two dashes, without them. -/
def meetLong (g : Grammar) (word : List Char) (s : Scan) : Except UsageError Scan :=
  let name := String.ofList (word.takeWhile (· ≠ '='))
  let attached :=
    match word.dropWhile (· ≠ '=') with
    | [] => none
    | _ :: value => some (String.ofList value)
  match g.options.find? (·.name = name) with
  | none => .error .unknownArgument
  | some spec =>
    match spec.kind, attached with
    | .value _, _ => s.meet spec attached
    | _, some _ => .error .unexpectedValue
    | _, none => s.meet spec none

/-- A word that starts with one dash, without it. -/
def meetLetters (g : Grammar) : List Char → Scan → Except UsageError Scan
  | [], s => .ok s
  | letter :: rest, s =>
    match g.options.find? (·.letter = some letter) with
    | none => .error .unknownArgument
    | some spec =>
      match spec.kind, rest with
      | .value _, [] => s.meet spec none
      | .value _, '=' :: value => s.meet spec (some (String.ofList value))
      | .value _, value => s.meet spec (some (String.ofList value))
      | _, _ => do meetLetters g rest (← s.meet spec none)

/-- A word that is no option. -/
def meetPositional (g : Grammar) (word : String) (s : Scan) : Except UsageError Scan :=
  if s.positionals.length < g.positionals then do
    let s ← s.settle
    return { s with positionals := s.positionals ++ [word] }
  else if g.commands.isEmpty || (s.onlyPositionals && word ∈ g.commands) then
    .error .unknownArgument
  else .error .unknownCommand

/-- Whether the next word is the value of an option. -/
def awaitsValue (s : Scan) : Bool :=
  match s.pending with
  | some ⟨_, none⟩ => true
  | _ => false

/-- The value that an option waits for, or a positional argument. -/
def meetPlain (g : Grammar) (word : String) (s : Scan) : Except UsageError Scan :=
  match s.pending with
  | some ⟨spec, none⟩ => .ok { s with pending := some ⟨spec, some word⟩ }
  | _ => s.meetPositional g word

/-- A word that is not the name of a command. -/
def meetWord (g : Grammar) (word : String) (s : Scan) : Except UsageError Scan :=
  if s.onlyPositionals then s.meetPositional g word
  else
    match word.toList with
    | ['-', '-'] => .ok { s with onlyPositionals := true }
    | '-' :: '-' :: rest => s.meetLong g rest
    | ['-'] => s.meetPlain g word
    | '-' :: rest => s.meetLetters g rest
    | _ => s.meetPlain g word

/-- Whether a word names a command here. -/
def startsCommand (g : Grammar) (word : String) (s : Scan) : Bool :=
  !s.onlyPositionals && !s.awaitsValue && word ∈ g.commands

/-- Reads words up to the end or to the name of a command, which comes with the words after it.
Values that are still open stay open. -/
def words (g : Grammar) :
    List String → Scan → Except UsageError (Scan × Option (String × List String))
  | [], s => .ok (s, none)
  | word :: rest, s =>
    if s.startsCommand g word then .ok (s, some (word, rest))
    else do words g rest (← s.meetWord g word)

end Scan

/-! ## What was given -/

/-- The options and positional arguments of one list of words. -/
structure Given where
  options : List (String × String)
  positionals : List String

/-- Everything a list of words without commands says. -/
def Grammar.read (g : Grammar) (words : List String) : Except UsageError Given := do
  let (s, _) ← Scan.words g words .start
  let s ← s.settle
  return ⟨s.given, s.positionals⟩

namespace Given

def option? (v : Given) (name : String) : Option String := v.options.lookup name

def hasFlag (v : Given) (name : String) : Bool := (v.option? name).isSome

/-- The value of an option that has to be there. -/
def required (v : Given) (name : String) : Except UsageError String :=
  match v.option? name with
  | some value => .ok value
  | none => .error .missingArgument

/-- A positional argument that has to be there. -/
def positional (v : Given) (i : Nat) : Except UsageError String :=
  match v.positionals[i]? with
  | some value => .ok value
  | none => .error .missingArgument

end Given
end CommandLine
end ForgeChores
