import ForgeChores.Environment
import ForgeChores.Forge.Remote
import ForgeChores.Settings

/-!
# ForgeChores.Registry

The providers that chores may run against, each with what is needed to talk to it.

A registry holds a provider at most once, in the order of registration. An allow-list selects from
it. A list that names no registered provider selects all of them, so that a slip never skips
everything silently; asked about a single provider, though, such a list does not allow it.
-/

namespace ForgeChores

/-- What is needed to talk to one provider. -/
structure ProviderConfig where
  provider : Provider
  apiBase : String
  /-- Where people find the repositories. -/
  webBase : String
  org : String
  /-- The repository that is forked for each run; a bare name belongs to `org`. -/
  sourceRepo : String
  /-- The environment variable that holds the token. -/
  tokenEnv : String
  /-- The build secret to provision before forking. -/
  secretName : Option String
  timeouts : Timeouts
deriving DecidableEq

namespace ProviderConfig

def source (c : ProviderConfig) : RepoPath := RepoPath.parse c.sourceRepo c.org

def sourceRepoPath (c : ProviderConfig) : String := c.source.fullPath

/-- The name of a new fork: the name of the source with a suffix. On GitLab it is a full path, and
elsewhere a bare name. -/
def targetRepoName (c : ProviderConfig) (suffix : String) : String :=
  let name := c.source.name ++ "-" ++ suffix
  match c.provider with
  | .gitLab => c.org ++ "/" ++ name
  | .gitHub => name
  | .forgejo => name

/-- Where people find a repository. -/
def targetRepoUrl (c : ProviderConfig) (name : String) : String :=
  let web := Text.trimEnd '/' c.webBase
  if '/' ∈ name.toList then web ++ "/" ++ name else web ++ "/" ++ c.org ++ "/" ++ name

def connect (c : ProviderConfig) (token : String) : Except ForgeError RemoteForge :=
  c.provider.connect token c.org c.apiBase c.timeouts

/-! ## From settings -/

/-- What holds where the settings are silent. -/
structure Defaults where
  webBase : String
  org : String
  tokenEnv : String
  secretName : Option String
  /-- How many seconds a fork may take to become usable. -/
  forkReady : Option Nat

def defaultSourceRepo : String := "devfile-sample-hello-world"

/-- Imports on GitLab are slow. -/
def defaults : Provider → Defaults
  | .gitHub => ⟨"https://github.com", "redhat-appstudio-qe", "GITHUB_TOKEN", none, none⟩
  | .gitLab =>
    ⟨"https://gitlab.com", "konflux-qe", "GITLAB_BOT_TOKEN", some "pipelines-as-code-secret",
      some (20 * 60)⟩
  | .forgejo => ⟨"https://codeberg.org", "konflux-qe", "FORGEJO_BOT_TOKEN", none, none⟩

/-- Replaces the span of a wait if the settings give one in seconds. -/
def withTimeout (o : WaitOptions) : Option Nat → WaitOptions
  | some seconds => { o with timeout := Duration.seconds seconds }
  | none => o

/-- The wait options of one provider. -/
def timeoutsOf (s : TimeoutSettings) (forkReady : Option Nat) : Timeouts :=
  { branch := withTimeout .branch s.branch
    status := withTimeout .status s.status
    fork := withTimeout .fork s.fork
    forkReady := withTimeout .forkReady forkReady }

/-- A provider as the settings have it. -/
def ofSettings (s : Settings) (p : Provider) : ProviderConfig :=
  let own := s.provider p
  let d := defaults p
  { provider := p
    apiBase := own.apiBase.getD p.defaultApiBase
    webBase := own.webBase.getD d.webBase
    org := own.org.getD d.org
    sourceRepo := own.sourceRepo.getD defaultSourceRepo
    tokenEnv := own.tokenEnv.getD d.tokenEnv
    secretName := own.secretName.or d.secretName
    timeouts := timeoutsOf s.timeouts (own.forkReady.or d.forkReady) }

end ProviderConfig

/-- Why a provider cannot be used. -/
inductive RegistryError where
  | notRegistered (p : Provider)
  | duplicate (p : Provider)
  | missingCredential (p : Provider) (tokenEnv : String)
  | secretSetup (p : Provider) (secret message : String)
  | forge (e : ForgeError)
deriving DecidableEq

def RegistryError.message : RegistryError → String
  | .notRegistered p => "git provider " ++ p.label ++ " is not registered"
  | .duplicate p => "git provider " ++ p.label ++ " is already registered"
  | .missingCredential p tokenEnv =>
    p.label ++ " token environment variable " ++ tokenEnv ++ " is not set"
  | .secretSetup p secret message =>
    "failed to set up build secret '" ++ secret ++ "' for " ++ p.label ++ ": " ++ message
  | .forge e => e.message

structure Registry where
  configs : List ProviderConfig

namespace Registry

def empty : Registry := ⟨[]⟩

/-- The entry of a provider. -/
def find? (r : Registry) (p : Provider) : Option ProviderConfig :=
  r.configs.find? (·.provider = p)

def config (r : Registry) (p : Provider) : Except RegistryError ProviderConfig :=
  match r.find? p with
  | some c => .ok c
  | none => .error (.notRegistered p)

/-- Adds a provider that is not there yet. -/
def register (r : Registry) (c : ProviderConfig) : Except RegistryError Registry :=
  match r.find? c.provider with
  | some _ => .error (.duplicate c.provider)
  | none => .ok ⟨r.configs ++ [c]⟩

/-- Every provider as the settings have it. -/
def ofSettings (s : Settings) : Registry := ⟨Provider.all.map (ProviderConfig.ofSettings s)⟩

/-! ## Selection -/

/-- The entries of an allow-list. -/
def allowEntries (list : String) : List String :=
  ((Text.pieces ',' list).map Text.trim).filter (· ≠ "")

/-- The providers that an allow-list names. A list that is absent or has no entries names none
because it restricts nothing. -/
def allowed? (list : Option String) : Option (List Provider) :=
  match (list.map allowEntries).getD [] with
  | [] => none
  | entries => some (entries.filterMap Provider.parse?)

/-- The selected providers; all of them if the list selects none. -/
def enabled (r : Registry) (list : Option String) : List ProviderConfig :=
  match allowed? list with
  | none => r.configs
  | some wanted =>
    match r.configs.filter fun c => c.provider ∈ wanted with
    | [] => r.configs
    | selected => selected

/-- Whether a provider is registered and not ruled out by the list. -/
def isEnabled (r : Registry) (p : Provider) (list : Option String) : Bool :=
  (r.find? p).isSome &&
    match allowed? list with
    | none => true
    | some wanted => p ∈ wanted

def allowVariable : String := "E2E_GIT_PROVIDERS"

/-- The providers that the environment selects. -/
def enabledFromEnv (r : Registry) (env : Environment) : List ProviderConfig :=
  r.enabled (env.get? allowVariable)

end Registry
end ForgeChores
