import ForgeChores.Text

/-!
# ForgeChores.Repository

Repositories by name, and what is seen of their pull requests and files.
-/

namespace ForgeChores

/-- The name of a repository: an owner, which may be a nested group, and a name in it. -/
structure RepoPath where
  owner : String
  name : String
deriving DecidableEq

namespace RepoPath

/-- The text without white space and then without slashes around it. -/
def core (repo : String) : List Char :=
  Text.stripWhile (· == '/') (Text.trim repo).toList

/-- Splits at the last slash. A bare name belongs to `defaultOwner`. -/
def parse (repo defaultOwner : String) : RepoPath :=
  let text := core repo
  match Text.splitLast '/' text with
  | some (owner, name) =>
    if owner.isEmpty || name.isEmpty then ⟨defaultOwner, String.ofList text⟩
    else ⟨String.ofList owner, String.ofList name⟩
  | none => ⟨defaultOwner, String.ofList text⟩

def fullPath (r : RepoPath) : String := r.owner ++ "/" ++ r.name

end RepoPath

/-- A pull request as a forge showed it. Without a merge commit it is not merged. -/
structure PullRequest where
  number : Nat
  sourceBranch : String
  targetBranch : String
  headSha : String
  mergeCommitSha : String
deriving DecidableEq

def PullRequest.isMerged (p : PullRequest) : Bool := !p.mergeCommitSha.isEmpty

/-- A file at the tip of a branch, with the commit it came from. -/
structure RepositoryFile where
  commitSha : String
  content : String
deriving DecidableEq

end ForgeChores
