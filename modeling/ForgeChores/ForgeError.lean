import ForgeChores.Wait

/-!
# ForgeChores.ForgeError

Why an operation on a forge failed.

Callers branch on the kind of a failure and never on its text, so a forge that rewords a message
cannot change what they do. `ForgeError.message` is the only place where a failure becomes text.
-/

namespace ForgeChores

inductive ForgeError where
  /-- What was named is not there. -/
  | notFound (context message : String)
  /-- What was to be made is there already. -/
  | conflict (context message : String)
  /-- Trying again may help. -/
  | transient (context message : String)
  /-- Any other answer, with the HTTP status if there was one. -/
  | provider (context : String) (status : Option Nat) (message : String)
  /-- The request was never made. -/
  | invalidArgument (message : String)
  /-- The change was accepted but did not show in time. -/
  | timeout (t : WaitTimeout)
deriving DecidableEq

namespace ForgeError

inductive Kind where
  | notFound
  | conflict
  | transient
  | provider
  | invalidArgument
  | timeout
deriving DecidableEq

def kind : ForgeError → Kind
  | .notFound .. => .notFound
  | .conflict .. => .conflict
  | .transient .. => .transient
  | .provider .. => .provider
  | .invalidArgument .. => .invalidArgument
  | .timeout .. => .timeout

def message : ForgeError → String
  | .notFound context m => context ++ ": not found: " ++ m
  | .conflict context m => context ++ ": conflict: " ++ m
  | .transient context m => context ++ ": transient failure: " ++ m
  | .provider context none m => context ++ ": provider error: " ++ m
  | .provider context (some status) m =>
    context ++ ": provider error (HTTP " ++ toString status ++ "): " ++ m
  | .invalidArgument m => "invalid argument: " ++ m
  | .timeout t => t.message

def isNotFound (e : ForgeError) : Bool := e.kind == .notFound

def isTransient (e : ForgeError) : Bool := e.kind == .transient

/-- The HTTP status of an unclassified answer. -/
def status? : ForgeError → Option Nat
  | .provider _ status _ => status
  | _ => none

/-- Replaces the context. An invalid argument and a timeout carry none. -/
def withContext (context : String) : ForgeError → ForgeError
  | .notFound _ m => .notFound context m
  | .conflict _ m => .conflict context m
  | .transient _ m => .transient context m
  | .provider _ status m => .provider context status m
  | e => e

/-- A missing thing as an absent value. -/
def ignoreNotFound {α : Type} : Except ForgeError α → Except ForgeError (Option α)
  | .ok a => .ok (some a)
  | .error e => if e.isNotFound then .ok none else .error e

end ForgeError

/-- A wait whose timeout is a failure of the forge operation. -/
def Wait.on {σ α : Type} (what : String) (o : WaitOptions)
    (check : Attempt σ ForgeError (Option α)) : Task σ ForgeError α :=
  (Wait.poll ForgeError.message what o check).mapError .timeout

end ForgeChores
