import ForgeChores.Environment
import ForgeChores.Settings

/-!
# ForgeChores.Settings.Overlay

Environment variables that win over the settings file. An empty variable changes nothing.
-/

namespace ForgeChores
namespace Settings

/-- The variable wins over what was set. -/
def overlaid (env : Environment) (name : String) (was : Option String) : Option String :=
  match env.value? name with
  | some v => some v
  | none => was

/-- A number of minutes in seconds. Zero, and what 64 bits do not hold, is no time. -/
def minutes? (raw : String) : Option Nat := do
  let n ← Text.natural? Text.bound64 (Text.trim raw)
  if 0 < n && n * 60 < Text.bound64 then some (n * 60) else none

def importVariable : String := "GITLAB_FORK_IMPORT_TIMEOUT_MINUTES"

/-- How long an import may take. A variable that holds no time changes nothing. -/
def overlaidImport (env : Environment) (was : Option Nat) : Option Nat :=
  match (env.value? importVariable).bind minutes? with
  | some seconds => some seconds
  | none => was

def gitHubOrgVariable : String := "GITHUB_E2E_ORGANIZATION"
def gitLabOrgVariable : String := "GITLAB_QE_ORG"
def gitLabApiVariable : String := "GITLAB_API_URL"
def forgejoOrgVariable : String := "FORGEJO_ORG"
def forgejoApiVariable : String := "FORGEJO_API_URL"

/-- Every variable that settings are taken from. -/
def overlayVariables : List String :=
  [gitHubOrgVariable, gitLabOrgVariable, gitLabApiVariable, importVariable, forgejoOrgVariable,
    forgejoApiVariable]

def overlay (s : Settings) (env : Environment) : Settings :=
  { gitHub := { s.gitHub with org := overlaid env gitHubOrgVariable s.gitHub.org }
    gitLab := { s.gitLab with
      org := overlaid env gitLabOrgVariable s.gitLab.org
      apiBase := overlaid env gitLabApiVariable s.gitLab.apiBase
      forkReady := overlaidImport env s.gitLab.forkReady }
    forgejo := { s.forgejo with
      org := overlaid env forgejoOrgVariable s.forgejo.org
      apiBase := overlaid env forgejoApiVariable s.forgejo.apiBase }
    timeouts := s.timeouts }

end Settings
end ForgeChores
