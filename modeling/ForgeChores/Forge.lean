import ForgeChores.ForgeError
import ForgeChores.Provider
import ForgeChores.Repository
import ForgeChores.Wait.Status

/-!
# ForgeChores.Forge

What every forge can do, whichever it is. The state `σ` is what lies behind it: an exchange with a
server, or repositories in memory.

Repositories are named by owner and name; a bare name belongs to the organization that the forge
was set up for. Operations that take effect late return once the effect can be seen.
-/

namespace ForgeChores

structure Forge (σ : Type) where
  provider : Provider
  /-- Makes a branch from the tip of `base`, or from `revision` unless that is empty. -/
  createBranch : (repo base revision branch : String) → Task σ ForgeError Unit
  /-- A missing branch is not found. -/
  deleteBranch : (repo branch : String) → Task σ ForgeError Unit
  /-- Answers `false` only if the branch is known not to be there. -/
  branchExists : (repo branch : String) → Task σ ForgeError Bool
  /-- All open pull requests. -/
  listPullRequests : (repo : String) → Task σ ForgeError (List PullRequest)
  createPullRequest : (repo title body head base : String) → Task σ ForgeError PullRequest
  /-- Merges with a merge commit. -/
  mergePullRequest : (repo : String) → (number : Nat) → Task σ ForgeError PullRequest
  /-- Deletes the source branch, which may be gone already, and closes the pull request. -/
  closePullRequest : (repo : String) → (number : Nat) → Task σ ForgeError Unit
  createFile : (repo path content branch : String) → Task σ ForgeError RepositoryFile
  getFile : (repo path branch : String) → Task σ ForgeError RepositoryFile
  /-- Removes the first webhook whose URL contains `host`, if there is one. -/
  cleanupWebhooks : (repo host : String) → Task σ ForgeError Unit
  /-- Forks `source` as `target` and returns once the fork can be used. -/
  forkRepository : (source target : String) → Task σ ForgeError Unit
  /-- Answers `false` if the repository was not there. -/
  deleteRepository : (repo : String) → Task σ ForgeError Bool
  /-- Every status reported for a commit. -/
  listCommitStatuses : (repo sha : String) → Attempt σ ForgeError (List CommitStatus)

/-- Waits for the status named `name`, first to appear and then to finish; `o` holds for each. -/
def Forge.statusConclusion {σ : Type} (f : Forge σ) (repo sha name : String) (o : WaitOptions) :
    Task σ ForgeError StatusState :=
  (Wait.forStatus ForgeError.message name o o (f.listCommitStatuses repo sha)).mapError .timeout

/-! ## What was being done

The texts that errors begin with. -/

namespace Context

def createBranch (branch repo : String) : String := "create branch '" ++ branch ++ "' in " ++ repo
def deleteBranch (branch repo : String) : String := "delete branch '" ++ branch ++ "' in " ++ repo
def checkBranch (branch repo : String) : String := "check branch '" ++ branch ++ "' in " ++ repo
def branchToExist (branch repo : String) : String :=
  "branch '" ++ branch ++ "' in " ++ repo ++ " to exist"
def listPulls (repo : String) : String := "list pull requests in " ++ repo
def createPull (head base repo : String) : String :=
  "create PR " ++ head ++ " -> " ++ base ++ " in " ++ repo
def getPull (number : Nat) (repo : String) : String :=
  "get PR #" ++ toString number ++ " in " ++ repo
def mergePull (number : Nat) (repo : String) : String :=
  "merge PR #" ++ toString number ++ " in " ++ repo
def closePull (number : Nat) (repo : String) : String :=
  "close PR #" ++ toString number ++ " in " ++ repo
def createFile (path branch repo : String) : String :=
  "create file '" ++ path ++ "' on '" ++ branch ++ "' in " ++ repo
def getFile (path branch repo : String) : String :=
  "get file '" ++ path ++ "' on '" ++ branch ++ "' in " ++ repo
def cleanupWebhooks (repo : String) : String := "clean up webhooks in " ++ repo
def fork (source target : String) : String := "fork " ++ source ++ " into " ++ target
def deleteRepository (repo : String) : String := "delete repository " ++ repo

end Context

/-- An empty text would match every webhook. -/
def ForgeError.emptyHost : ForgeError := .invalidArgument "webhook host substring must not be empty"

end ForgeChores
