import ForgeChores.Settings
import ForgeChores.Url.Reader

/-!
# ForgeChores.Settings.Valid

Which settings are accepted.

An organization is not blank, a base is an http URL, a timeout is between a second and a week,
and the variable of the token has a name. The first fault in the order of the sections is the one
that is reported.
-/

namespace ForgeChores
namespace Settings

/-- A fault in settings; timeouts by their full key. -/
inductive Fault where
  | emptyOrg (p : Provider)
  | notHttp (p : Provider) (key url : String)
  | zeroTimeout (key : String)
  | longTimeout (key : String) (seconds : Nat)
  | emptyTokenEnv (p : Provider)
deriving DecidableEq

/-- A week. -/
def maxTimeout : Nat := 7 * 24 * 60 * 60

def Fault.message : Fault → String
  | .emptyOrg p => p.label ++ ".org cannot be empty"
  | .notHttp p key url => p.label ++ "." ++ key ++ " must be an http(s) URL, got '" ++ url ++ "'"
  | .zeroTimeout key => key ++ " must be greater than zero"
  | .longTimeout key seconds =>
    key ++ " must be at most " ++ toString maxTimeout ++ " seconds, got " ++ toString seconds
  | .emptyTokenEnv p => p.label ++ ".token_env cannot be empty"

/-- Whether a text is the URL of something on the web. -/
def isHttpUrl (s : String) : Bool :=
  ("https://".toList.isPrefixOf s.toList || "http://".toList.isPrefixOf s.toList) &&
    (Url.parse s).isOk

def checkOrg (p : Provider) : Option String → Except Fault Unit
  | some org => if Text.trim org = "" then .error (.emptyOrg p) else .ok ()
  | none => .ok ()

def checkUrl (p : Provider) (key : String) : Option String → Except Fault Unit
  | some url => if isHttpUrl url then .ok () else .error (.notHttp p key url)
  | none => .ok ()

def checkTimeout (key : String) : Option Nat → Except Fault Unit
  | some seconds =>
    if seconds = 0 then .error (.zeroTimeout key)
    else if maxTimeout < seconds then .error (.longTimeout key seconds)
    else .ok ()
  | none => .ok ()

def checkTokenEnv (p : Provider) : Option String → Except Fault Unit
  | some name => if name = "" then .error (.emptyTokenEnv p) else .ok ()
  | none => .ok ()

def checkProvider (p : Provider) (s : ProviderSettings) : Except Fault Unit := do
  checkOrg p s.org
  checkUrl p "api_base" s.apiBase
  checkUrl p "web_base" s.webBase
  checkTimeout (p.label ++ ".fork_ready") s.forkReady
  checkTokenEnv p s.tokenEnv

/-- Finds the first fault. -/
def validate (s : Settings) : Except Fault Unit := do
  checkProvider .gitHub s.gitHub
  checkProvider .gitLab s.gitLab
  checkProvider .forgejo s.forgejo
  checkTimeout "timeouts.branch" s.timeouts.branch
  checkTimeout "timeouts.status" s.timeouts.status
  checkTimeout "timeouts.fork" s.timeouts.fork

end Settings
end ForgeChores
