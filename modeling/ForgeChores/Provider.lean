import ForgeChores.Text

/-!
# ForgeChores.Provider

The kinds of git hosting that chores run against, and the names they go by.
-/

namespace ForgeChores

inductive Provider where
  | gitHub
  | gitLab
  | forgejo
deriving DecidableEq, Repr

namespace Provider

/-- Every provider, in the order in which they are registered by default. -/
def all : List Provider := [.gitHub, .gitLab, .forgejo]

/-- Two letters. -/
def tag : Provider → String
  | .gitHub => "gh"
  | .gitLab => "gl"
  | .forgejo => "fj"

def label : Provider → String
  | .gitHub => "github"
  | .gitLab => "gitlab"
  | .forgejo => "forgejo"

/-- Reads a tag, a label or another common name, in any ASCII case and with white space around
it. -/
def parse? (s : String) : Option Provider :=
  let name := Text.lower (Text.trim s)
  if name == "gh" || name == "github" then some .gitHub
  else if name == "gl" || name == "gitlab" then some .gitLab
  else if name == "fj" || name == "forgejo" || name == "gt" || name == "gitea" then some .forgejo
  else none

end Provider
end ForgeChores
