import ForgeChores.Forge.Forgejo
import ForgeChores.Forge.GitHub
import ForgeChores.Forge.GitLab

/-!
# ForgeChores.Forge.Remote

A forge behind a REST API, whichever it is.
-/

namespace ForgeChores

/-- A forge that is reached through `api`. -/
structure RemoteForge where
  api : Client
  forge : Forge Exchange

namespace Provider

def defaultApiBase : Provider → String
  | .gitHub => GitHub.defaultApiBase
  | .gitLab => GitLab.defaultApiBase
  | .forgejo => Forgejo.defaultApiBase

/-- A forge of this provider. A bad base or token is an invalid argument. -/
def connect (p : Provider) (token org apiBase : String) (timeouts : Timeouts) :
    Except ForgeError RemoteForge :=
  match p with
  | .gitHub => do
    let g ← GitHub.connect token org apiBase timeouts
    return ⟨g.api, g.forge⟩
  | .gitLab => do
    let g ← GitLab.connect token org apiBase timeouts GitLab.defaultRetryDelay
    return ⟨g.api, g.forge⟩
  | .forgejo => do
    let g ← Forgejo.connect token org apiBase timeouts
    return ⟨g.api, g.forge⟩

end Provider
end ForgeChores
