import ForgeChores.CommandLine.Command
import ForgeChores.Registry
import ForgeChores.Settings.Source

/-!
# ForgeChores.CommandLine.Run

What the commands do: settings, registry, forge, one operation, and what is printed.

The state is the exchange with the server and the lines printed so far. A failure is a chain of
texts, from what was to be done down to why it could not be.
-/

namespace ForgeChores
namespace CommandLine

/-- Why a command failed, with its causes. -/
structure Failure where
  headline : String
  causes : List String
deriving DecidableEq

namespace Failure

/-- All on one line. -/
def message (f : Failure) : String := ": ".intercalate (f.headline :: f.causes)

/-- A text whose lines after the first start with `margin`. -/
def hanging (margin text : String) : String :=
  ("\n" ++ margin).intercalate (Text.pieces '\n' text)

/-- A cause among several, with its number. -/
def numbered (i : Nat) (cause : String) : String :=
  let number := toString i
  "".pushn ' ' (5 - number.length) ++ number ++ ": " ++ hanging "       " cause

/-- The causes one under the other. -/
def causeLines (f : Failure) : List String :=
  match f.causes with
  | [] => []
  | [cause] => ["    " ++ hanging "    " cause]
  | causes => (causes.zipIdx).map fun (cause, i) => numbered i cause

/-- The failure as it is shown at the end of the program. -/
def report (f : Failure) : String :=
  let head := "Error: " ++ f.headline
  match f.causeLines with
  | [] => head ++ "\n"
  | lines => head ++ "\n\nCaused by:\n" ++ "\n".intercalate lines ++ "\n"

def ofRegistry (e : RegistryError) : Failure := ⟨e.message, []⟩

/-- A failed operation on a forge. -/
def ofForge (headline : String) (e : ForgeError) : Failure := ⟨headline, [e.message]⟩

def ofSettings (e : Settings.LoadError) : Failure :=
  let inner :=
    match e with
    | .unreadable _ fault => [fault.text]
    | _ => []
  ⟨"failed to load settings", e.message :: inner⟩

end Failure

/-- The exchange with a server and the lines printed so far. -/
abbrev Session := Exchange × List String

abbrev Job (α : Type) := Task Session Failure α

namespace Job

def print (line : String) : Job Unit := fun (x, lines) => ⟨.ok (), 0, (x, lines ++ [line])⟩

/-- An operation on a forge as part of a job. -/
def operation {α : Type} (headline : String) (m : Task Exchange ForgeError α) : Job α :=
  Task.onFirst (m.mapError (Failure.ofForge headline))

end Job

/-! ## Commands -/

/-- The forge of a provider. Unlike a setup, a command needs a token. -/
def connect (r : Registry) (env : Environment) (p : Provider) : Except Failure RemoteForge := do
  let c ← (r.config p).mapError .ofRegistry
  let token := env.getOr c.tokenEnv ""
  if token = "" then .error (.ofRegistry (.missingCredential p c.tokenEnv))
  else (c.connect token).mapError (.ofForge ("failed to create " ++ p.label ++ " client"))

/-- One provider in the list; a star marks those that are enabled. -/
def providerLine (enabled : List ProviderConfig) (c : ProviderConfig) : String :=
  let mark := if enabled.any (·.provider = c.provider) then "*" else " "
  mark ++ " " ++ Text.padRight 3 c.provider.tag ++ " " ++ Text.padRight 8 c.provider.label ++
    " " ++ Text.padRight 20 c.org ++ " " ++ c.tokenEnv

def providers (r : Registry) (env : Environment) (only : Option String) : Job Unit :=
  let enabled := r.enabled (only.or (env.get? Registry.allowVariable))
  r.configs.forM fun c => Job.print (providerLine enabled c)

def pullLine (p : PullRequest) : String :=
  "#" ++ Text.padRight 5 (toString p.number) ++ " " ++ p.sourceBranch ++ " -> " ++
    p.targetBranch ++ " " ++ p.headSha

def branchExists (f : Forge Exchange) (repo branch : String) : Job Unit := do
  let found ← Job.operation ("failed to check branch '" ++ branch ++ "'")
    (f.branchExists repo branch)
  Job.print (if found then "true" else "false")

/-- Deletes a branch and tells whether it was there. -/
def deleteIfThere (f : Forge Exchange) (repo branch : String) : Task Exchange ForgeError Bool := do
  let gone ← (f.deleteBranch repo branch).caught
  let found ← Task.ofExcept (ForgeError.ignoreNotFound gone)
  return found.isSome

def deleteBranch (f : Forge Exchange) (repo branch : String) : Job Unit := do
  let found ← Job.operation ("failed to delete branch '" ++ branch ++ "'")
    (deleteIfThere f repo branch)
  Job.print <|
    if found then "Deleted branch '" ++ branch ++ "'."
    else "Branch '" ++ branch ++ "' does not exist."

/-- Open pull requests by number. -/
def listPulls (f : Forge Exchange) (repo : String) : Job Unit := do
  let pulls ← Job.operation "failed to list pull requests" (f.listPullRequests repo)
  (pulls.mergeSort fun p q => p.number ≤ q.number).forM fun p => Job.print (pullLine p)

def cleanupWebhooks (f : Forge Exchange) (repo host : String) : Job Unit :=
  Job.operation "failed to clean up webhooks" (f.cleanupWebhooks repo host)

def deleteRepository (f : Forge Exchange) (repo : String) : Job Unit := do
  let found ← Job.operation ("failed to delete repository '" ++ repo ++ "'")
    (f.deleteRepository repo)
  Job.print <|
    if found then "Deleted repository '" ++ repo ++ "'."
    else "Repository '" ++ repo ++ "' does not exist."

/-- Whether a finished check lets a pipeline go on. -/
def isGood (s : StatusState) : Bool := s == .success || s == .skipped

/-- The options of a wait with what the command line says; an interval lasts a second at least. -/
def statusOptions (o : WaitOptions) (timeout interval : Option Nat) : WaitOptions :=
  { timeout := (timeout.map Duration.seconds).getD o.timeout
    interval := (interval.map fun n => Duration.seconds (max n 1)).getD o.interval }

/-- Prints the state of a finished check, and fails unless it is a good one. -/
def status (f : Forge Exchange) (repo sha name : String) (o : WaitOptions) : Job Unit := do
  let state ← Job.operation ("failed waiting for status '" ++ name ++ "' on " ++ sha)
    (f.statusConclusion repo sha name o)
  Job.print state.text
  if !isGood state then
    Task.fail ⟨"status '" ++ name ++ "' finished as " ++ state.text, []⟩

def Command.run (r : Registry) (env : Environment) : Command → Job Unit
  | .providers only => CommandLine.providers r env only
  | .branchExists t branch => do
    let remote ← Task.ofExcept (connect r env t.provider)
    CommandLine.branchExists remote.forge t.repo branch
  | .deleteBranch t branch => do
    let remote ← Task.ofExcept (connect r env t.provider)
    CommandLine.deleteBranch remote.forge t.repo branch
  | .listPulls t => do
    let remote ← Task.ofExcept (connect r env t.provider)
    CommandLine.listPulls remote.forge t.repo
  | .cleanupWebhooks t host => do
    let remote ← Task.ofExcept (connect r env t.provider)
    CommandLine.cleanupWebhooks remote.forge t.repo host
  | .deleteRepository t => do
    let remote ← Task.ofExcept (connect r env t.provider)
    CommandLine.deleteRepository remote.forge t.repo
  | .status t sha name timeout interval => do
    let c ← Task.ofExcept ((r.config t.provider).mapError Failure.ofRegistry)
    let remote ← Task.ofExcept (connect r env t.provider)
    CommandLine.status remote.forge t.repo sha name
      (statusOptions c.timeouts.status timeout interval)

/-- The registry that a call works with. -/
def Call.registry (c : Call) (files : Files) (env : Environment) (home : Option String) :
    Except Failure Registry := do
  let (s, _) ← (Settings.load files env home c.config).mapError Failure.ofSettings
  return .ofSettings s

def Call.run (c : Call) (files : Files) (env : Environment) (home : Option String) : Job Unit := do
  let r ← Task.ofExcept (c.registry files env home)
  c.command.run r env

/-- The provider that a command talks to. -/
def Command.provider? : Command → Option Provider
  | .providers _ => none
  | .branchExists t _ => some t.provider
  | .deleteBranch t _ => some t.provider
  | .listPulls t => some t.provider
  | .cleanupWebhooks t _ => some t.provider
  | .deleteRepository t => some t.provider
  | .status t _ _ _ _ => some t.provider

end CommandLine
end ForgeChores
