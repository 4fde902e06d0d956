import ForgeChores.CommandLine.Grammar
import ForgeChores.Provider
import ForgeChores.Settings.Valid

/-!
# ForgeChores.CommandLine.Command

The commands and how they are called.

`--debug` and `--config` may stand before a command and behind it. Behind it `--config` wins.
-/

namespace ForgeChores
namespace CommandLine

/-- A provider and a repository. -/
structure Target where
  provider : Provider
  repo : String

inductive Command where
  /-- Lists the registered providers; `only` takes the place of the allow-list. -/
  | providers (only : Option String)
  | branchExists (target : Target) (branch : String)
  | deleteBranch (target : Target) (branch : String)
  | listPulls (target : Target)
  | cleanupWebhooks (target : Target) (host : String)
  | deleteRepository (target : Target)
  /-- Waits for a status; timeout and interval in seconds. -/
  | status (target : Target) (sha name : String) (timeout interval : Option Nat)

/-- Which command it is. -/
inductive Command.Kind where
  | providers
  | branchExists
  | deleteBranch
  | listPulls
  | cleanupWebhooks
  | deleteRepository
  | status
deriving DecidableEq

/-- A call of the program. -/
structure Call where
  debug : Bool
  config : Option String
  command : Command

/-! ## Options -/

def anyText : String → Except UsageError Unit := fun _ => .ok ()

/-- An empty path is no path. -/
def somePath (value : String) : Except UsageError Unit :=
  if value = "" then .error .missingValue else .ok ()

def knownProvider (value : String) : Except UsageError Unit :=
  if (Provider.parse? value).isSome then .ok () else .error .invalidValue

def seconds? (value : String) : Option Nat := Text.natural? Text.bound64 value

def someSeconds (value : String) : Except UsageError Unit :=
  if (seconds? value).isSome then .ok () else .error .invalidValue

/-- What a timeout may be in settings it may be here. -/
def acceptedTimeout (value : String) : Except UsageError Unit :=
  match seconds? value with
  | some n => if 1 ≤ n && n ≤ Settings.maxTimeout then .ok () else .error .invalidValue
  | none => .error .invalidValue

/-- Options that may stand before a command and behind it. -/
def globalOptions : List OptionSpec :=
  [⟨"debug", none, .flag⟩, ⟨"config", none, .value somePath⟩]

/-- Asks for help on a command. -/
def helpOption (command : String) : OptionSpec :=
  ⟨"help", some 'h', .request (.helpRequested command)⟩

def providerOption : OptionSpec := ⟨"provider", some 'p', .value knownProvider⟩

namespace Command.Kind

def all : List Command.Kind :=
  [.providers, .branchExists, .deleteBranch, .listPulls, .cleanupWebhooks, .deleteRepository,
    .status]

def name : Command.Kind → String
  | .providers => "providers"
  | .branchExists => "branch-exists"
  | .deleteBranch => "delete-branch"
  | .listPulls => "list-prs"
  | .cleanupWebhooks => "cleanup-webhooks"
  | .deleteRepository => "delete-repo"
  | .status => "status"

def ofName? (name : String) : Option Command.Kind := all.find? (·.name = name)

/-- The options of a command. -/
def options : Command.Kind → List OptionSpec
  | .providers => [⟨"only", none, .value anyText⟩]
  | .status =>
    [providerOption, ⟨"timeout", none, .value acceptedTimeout⟩,
      ⟨"interval", none, .value someSeconds⟩]
  | _ => [providerOption]

/-- How many positional arguments a command has. -/
def positionals : Command.Kind → Nat
  | .providers => 0
  | .branchExists => 2
  | .deleteBranch => 2
  | .listPulls => 1
  | .cleanupWebhooks => 2
  | .deleteRepository => 1
  | .status => 3

/-- How a command is called. -/
def grammar (k : Command.Kind) : Grammar :=
  ⟨k.options ++ globalOptions ++ [helpOption k.name], k.positionals, []⟩

end Command.Kind

/-- What may stand before a command. -/
def outerGrammar : Grammar :=
  { options :=
      globalOptions ++ [helpOption "", ⟨"version", some 'V', .request .versionRequested⟩]
    positionals := 0
    commands := Command.Kind.all.map Command.Kind.name ++ [helpCommand] }

/-! ## Reading a call -/

/-- The provider and the repository, which is the first positional argument. -/
def Given.target (v : Given) : Except UsageError Target := do
  let value ← v.required "provider"
  match Provider.parse? value with
  | some p => return ⟨p, ← v.positional 0⟩
  | none => .error .invalidValue

/-- A command with its arguments. -/
def Command.ofGiven (k : Command.Kind) (v : Given) : Except UsageError Command :=
  match k with
  | .providers => .ok (.providers (v.option? "only"))
  | .branchExists => do return .branchExists (← v.target) (← v.positional 1)
  | .deleteBranch => do return .deleteBranch (← v.target) (← v.positional 1)
  | .listPulls => do return .listPulls (← v.target)
  | .cleanupWebhooks => do return .cleanupWebhooks (← v.target) (← v.positional 1)
  | .deleteRepository => do return .deleteRepository (← v.target)
  | .status => do
    return .status (← v.target) (← v.positional 1) (← v.positional 2)
      ((v.option? "timeout").bind seconds?) ((v.option? "interval").bind seconds?)

/-- A request to explain the commands that are named. Commands have no commands of their own. -/
def explain : List String → UsageError
  | [] => .helpRequested ""
  | [name] => if name ∈ outerGrammar.commands then .helpRequested name else .unknownCommand
  | _ => .unknownCommand

/-- Reads the words of a call. The command is read before an option that is still open in front
of it. -/
def Call.read (words : List String) : Except UsageError Call := do
  let (outer, rest) ← Scan.words outerGrammar words .start
  match rest with
  | some (name, words) =>
    match Command.Kind.ofName? name with
    | none => .error (explain words)
    | some k =>
      let v ← k.grammar.read words
      let command ← Command.ofGiven k v
      let outer ← outer.settle
      return {
        debug := v.hasFlag "debug" || outer.isGiven "debug"
        config := (v.option? "config").or (outer.given.lookup "config")
        command := command }
  | none =>
    let outer ← outer.settle
    .error (if outer.given.isEmpty then .nothingGiven else .missingCommand)

end CommandLine
end ForgeChores
