import ForgeChores.Forge
import ForgeChores.Proofs.Activity

/-!
# ForgeChores.Proofs.Forge.Calls

Every operation of a forge as a value, so that one statement can be about all of them and about
lists of them, carried out one after the other.

A forge can be made to note what it is asked for. Each of its operations does what it did otherwise.
-/

namespace ForgeChores

/-- Notes that it runs. -/
def Task.noting {σ κ ε α : Type} (k : κ) (m : Task σ ε α) : Task (σ × List κ) ε α :=
  fun (s, notes) =>
    let r := m s
    ⟨r.result, r.elapsed, (r.state, notes ++ [k])⟩

/-- Notes that it runs, also when it is cut off. -/
def Attempt.noting {σ κ ε α : Type} (k : κ) (m : Attempt σ ε α) : Attempt (σ × List κ) ε α where
  run limit s :=
    let r := m.run limit s.1
    ⟨r.result, r.elapsed, (r.state, s.2 ++ [k])⟩
  keeps limit s := m.keeps limit s.1

namespace Forge

/-- An operation with its arguments. -/
inductive Call where
  | createBranch (repo base revision branch : String)
  | deleteBranch (repo branch : String)
  | branchExists (repo branch : String)
  | listPullRequests (repo : String)
  | createPullRequest (repo title body head base : String)
  | mergePullRequest (repo : String) (number : Nat)
  | closePullRequest (repo : String) (number : Nat)
  | createFile (repo path content branch : String)
  | getFile (repo path branch : String)
  | cleanupWebhooks (repo host : String)
  | forkRepository (source target : String)
  | deleteRepository (repo : String)
  | listCommitStatuses (repo sha : String)
  | statusConclusion (repo sha name : String) (o : WaitOptions)

/-- What an operation may answer. -/
inductive Answer where
  | nothing
  | flag (b : Bool)
  | pull (p : PullRequest)
  | pulls (l : List PullRequest)
  | file (f : RepositoryFile)
  | statuses (l : List CommitStatus)
  | state (s : StatusState)

variable {σ : Type}

/-- Carries out one call. -/
def answer (f : Forge σ) : Call → Task σ ForgeError Answer
  | .createBranch repo base revision branch => do
    f.createBranch repo base revision branch
    return .nothing
  | .deleteBranch repo branch => do
    f.deleteBranch repo branch
    return .nothing
  | .branchExists repo branch => do return .flag (← f.branchExists repo branch)
  | .listPullRequests repo => do return .pulls (← f.listPullRequests repo)
  | .createPullRequest repo title body head base => do
    return .pull (← f.createPullRequest repo title body head base)
  | .mergePullRequest repo number => do return .pull (← f.mergePullRequest repo number)
  | .closePullRequest repo number => do
    f.closePullRequest repo number
    return .nothing
  | .createFile repo path content branch => do
    return .file (← f.createFile repo path content branch)
  | .getFile repo path branch => do return .file (← f.getFile repo path branch)
  | .cleanupWebhooks repo host => do
    f.cleanupWebhooks repo host
    return .nothing
  | .forkRepository source target => do
    f.forkRepository source target
    return .nothing
  | .deleteRepository repo => do return .flag (← f.deleteRepository repo)
  | .listCommitStatuses repo sha => do
    return .statuses (← Task.ofAttempt (f.listCommitStatuses repo sha))
  | .statusConclusion repo sha name o => do
    return .state (← f.statusConclusion repo sha name o)

/-- Carries out calls one after the other: what comes of each and how long it takes, and the state
behind the last. -/
def carryOut (f : Forge σ) : List Call → σ → List (Except ForgeError Answer × Nat) × σ
  | [], s => ([], s)
  | call :: rest, s =>
    let first := f.answer call s
    let others := f.carryOut rest first.state
    ((first.result, first.elapsed) :: others.1, others.2)

/-! ## Calls that are noted -/

/-- Notes every operation that it is asked for. -/
def noting (f : Forge σ) : Forge (σ × List Call) where
  provider := f.provider
  createBranch repo base revision branch :=
    (f.createBranch repo base revision branch).noting (.createBranch repo base revision branch)
  deleteBranch repo branch := (f.deleteBranch repo branch).noting (.deleteBranch repo branch)
  branchExists repo branch := (f.branchExists repo branch).noting (.branchExists repo branch)
  listPullRequests repo := (f.listPullRequests repo).noting (.listPullRequests repo)
  createPullRequest repo title body head base :=
    (f.createPullRequest repo title body head base).noting
      (.createPullRequest repo title body head base)
  mergePullRequest repo number :=
    (f.mergePullRequest repo number).noting (.mergePullRequest repo number)
  closePullRequest repo number :=
    (f.closePullRequest repo number).noting (.closePullRequest repo number)
  createFile repo path content branch :=
    (f.createFile repo path content branch).noting (.createFile repo path content branch)
  getFile repo path branch := (f.getFile repo path branch).noting (.getFile repo path branch)
  cleanupWebhooks repo host := (f.cleanupWebhooks repo host).noting (.cleanupWebhooks repo host)
  forkRepository source target :=
    (f.forkRepository source target).noting (.forkRepository source target)
  deleteRepository repo := (f.deleteRepository repo).noting (.deleteRepository repo)
  listCommitStatuses repo sha :=
    (f.listCommitStatuses repo sha).noting (.listCommitStatuses repo sha)

end Forge
end ForgeChores
