import ForgeChores.Registry
import ForgeChores.Text.Quoted

/-!
# ForgeChores.Setup

Making ready for a run: a fork of the source repository under a new name.

Two parties take part, each with a state of its own: the forge and the store of build secrets. A
provider that declares a build secret gets it first, and without it there is no fork.
-/

namespace ForgeChores

namespace Setup

/-- Puts a token into the store of build secrets, under the name of the secret. A failure is its
text. -/
abbrev Provisioner (τ : Type) :=
  (provider : Provider) → (secret token : String) → Task τ String Unit

def suffixAlphabet : List Char := "abcdefghijklmnopqrstuvwxyz0123456789".toList

def suffixLength : Nat := 6

/-- The suffix that a number stands for; a number drawn below `36 ^ 6` gives each suffix the same
chance. -/
def suffix (n : Nat) : String :=
  String.ofList ((List.range suffixLength).map fun i =>
    (suffixAlphabet[n / Nat.pow 36 i % 36]?).getD 'a')

/-- The fork that was made for a run. -/
structure Ready where
  provider : Provider
  targetRepoUrl : String
  /-- The name by which the forge was asked for the fork. -/
  targetRepoName : String

/-- The name of the constructor, for people to read. -/
def providerName : Provider → String
  | .gitHub => "GitHub"
  | .gitLab => "GitLab"
  | .forgejo => "Forgejo"

/-- For people to read. -/
def Ready.summary (r : Ready) : String :=
  "ProviderSetup \x7b provider: " ++ providerName r.provider ++ ", target_repo_url: " ++
    Text.quoted r.targetRepoUrl ++ ", target_repo_name: " ++ Text.quoted r.targetRepoName ++
    " \x7d"

variable {σ τ : Type}

/-- Provisions the build secret that a provider declares. -/
def provideSecret (c : ProviderConfig) (env : Environment) (secrets : Option (Provisioner τ)) :
    Task τ RegistryError Unit :=
  match c.secretName with
  | none => .pure ()
  | some secret =>
    let token := env.getOr c.tokenEnv ""
    if token = "" then .fail (.missingCredential c.provider c.tokenEnv)
    else
      match secrets with
      | none =>
        .fail (.secretSetup c.provider secret "no build secret provisioner was supplied")
      | some provision =>
        (provision c.provider secret token).mapError (.secretSetup c.provider secret)

/-- Makes ready with a forge that is at hand. -/
def withForge (c : ProviderConfig) (f : Forge σ) (env : Environment)
    (secrets : Option (Provisioner τ)) (suffix : String) :
    Task (σ × τ) RegistryError Ready := do
  Task.onSecond (provideSecret c env secrets)
  let name := c.targetRepoName suffix
  Task.onFirst ((f.forkRepository c.sourceRepoPath name).mapError .forge)
  return ⟨f.provider, c.targetRepoUrl name, name⟩

/-- The forge of a registered provider, with the token from the environment. -/
def connect (r : Registry) (p : Provider) (env : Environment) :
    Except RegistryError (ProviderConfig × RemoteForge) := do
  let c ← r.config p
  match c.connect (env.getOr c.tokenEnv "") with
  | .ok remote => return (c, remote)
  | .error e => .error (.forge e)

/-- Makes ready with the forge of a registered provider. -/
def run (r : Registry) (p : Provider) (env : Environment) (secrets : Option (Provisioner τ))
    (suffix : String) : Task (Exchange × τ) RegistryError Ready := do
  let (c, remote) ← Task.ofExcept (connect r p env)
  withForge c remote.forge env secrets suffix

end Setup
end ForgeChores
