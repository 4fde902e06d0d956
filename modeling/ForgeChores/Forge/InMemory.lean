import ForgeChores.Forge
import ForgeChores.Table

/-!
# ForgeChores.Forge.InMemory

A forge that keeps its repositories in memory and follows the same contract as the others, for
trying chores out.

* Every operation is logged and then either fails or takes effect; a failure leaves the
  repositories as they were.
* An operation can be set to fail, until that is cleared.
* Commits are named by a counter, so that no two of them have the same hash. An operation that
  makes a commit uses a name up even if it fails.
* Nothing takes time.
-/

namespace ForgeChores
namespace InMemory

/-! ## What a repository holds -/

structure Pull where
  pull : PullRequest
  isOpen : Bool

structure Hook where
  id : Nat
  url : String
deriving DecidableEq

structure Repository where
  /-- The hash at the tip of each branch. -/
  branches : Table String String := .empty
  pulls : Table Nat Pull := .empty
  nextPull : Nat := 1
  /-- Files by branch and path. -/
  files : Table (String × String) RepositoryFile := .empty
  /-- In the order in which they were made. -/
  hooks : List Hook := []
  /-- The reports to come for each commit; the last one repeats. -/
  reports : Table String (List (List CommitStatus)) := .empty

/-! ## Operations -/

/-- What was asked for, with repositories by their full paths. -/
inductive Operation where
  | createBranch (repo base branch : String)
  | deleteBranch (repo branch : String)
  | branchExists (repo branch : String)
  | listPullRequests (repo : String)
  | createPullRequest (repo head base : String)
  | mergePullRequest (repo : String) (number : Nat)
  | closePullRequest (repo : String) (number : Nat)
  | createFile (repo path branch : String)
  | getFile (repo path branch : String)
  | cleanupWebhooks (repo host : String)
  | forkRepository (source target : String)
  | deleteRepository (repo : String)
  | listCommitStatuses (repo sha : String)
deriving DecidableEq

/-- Which operation it is. -/
inductive Operation.Kind where
  | createBranch
  | deleteBranch
  | branchExists
  | listPullRequests
  | createPullRequest
  | mergePullRequest
  | closePullRequest
  | createFile
  | getFile
  | cleanupWebhooks
  | forkRepository
  | deleteRepository
  | listCommitStatuses
deriving DecidableEq

namespace Operation

def kind : Operation → Kind
  | .createBranch .. => .createBranch
  | .deleteBranch .. => .deleteBranch
  | .branchExists .. => .branchExists
  | .listPullRequests .. => .listPullRequests
  | .createPullRequest .. => .createPullRequest
  | .mergePullRequest .. => .mergePullRequest
  | .closePullRequest .. => .closePullRequest
  | .createFile .. => .createFile
  | .getFile .. => .getFile
  | .cleanupWebhooks .. => .cleanupWebhooks
  | .forkRepository .. => .forkRepository
  | .deleteRepository .. => .deleteRepository
  | .listCommitStatuses .. => .listCommitStatuses

/-- Whether the operation makes a commit. -/
def makesCommit : Operation → Bool
  | .mergePullRequest .. => true
  | .createFile .. => true
  | _ => false

end Operation
end InMemory

/-- Repositories in memory. -/
structure InMemory where
  repos : Table String InMemory.Repository := .empty
  /-- The number of the next commit. -/
  nextCommit : Nat := 1
  nextHook : Nat := 1
  /-- An operation that is to fail, and how. -/
  failing : Option (InMemory.Operation.Kind × ForgeError) := none
  log : Array InMemory.Operation := #[]

namespace InMemory

/-- The owner of repositories that are named without one. -/
def defaultOwner : String := "mock-org"

/-- The full path that a repository is kept under. -/
def key (repo : String) : String := (RepoPath.parse repo defaultOwner).fullPath

/-- The hash of the `n`-th commit: forty hexadecimal digits. -/
def commitHash (n : Nat) : String := String.ofList (Text.hexDigits 40 n)

def get? (s : InMemory) (repo : String) : Option Repository := s.repos.get? (key repo)

/-! ## Setting up -/

/-- Makes a repository anew, all its branches at one first commit. -/
def withRepository (s : InMemory) (repo : String) (branches : List String) : InMemory :=
  let sha := commitHash s.nextCommit
  let made : Repository :=
    { branches := branches.foldl (fun t b => t.insert b sha) .empty }
  { s with nextCommit := s.nextCommit + 1, repos := s.repos.insert (key repo) made }

def failOn (s : InMemory) (kind : Operation.Kind) (e : ForgeError) : InMemory :=
  { s with failing := some (kind, e) }

def clearFailure (s : InMemory) : InMemory := { s with failing := none }

def clearLog (s : InMemory) : InMemory := { s with log := #[] }

/-- Adds a webhook if the repository is there. An id is used up even if it is not. -/
def addWebhook (s : InMemory) (repo url : String) : InMemory :=
  let repos :=
    match s.get? repo with
    | some r => s.repos.insert (key repo) { r with hooks := r.hooks ++ [⟨s.nextHook, url⟩] }
    | none => s.repos
  { s with nextHook := s.nextHook + 1, repos := repos }

/-- Sets what is going to be reported for a commit. -/
def scriptStatuses (s : InMemory) (repo sha : String) (reports : List (List CommitStatus)) :
    InMemory :=
  match s.get? repo with
  | some r =>
    { s with repos := s.repos.insert (key repo) { r with reports := r.reports.insert sha reports } }
  | none => s

/-! ## Looking inside -/

def webhooks (s : InMemory) (repo : String) : List String :=
  ((s.get? repo).map fun r => r.hooks.map (·.url)).getD []

def branchTip? (s : InMemory) (repo branch : String) : Option String := do
  let r ← s.get? repo
  r.branches.get? branch

def hasRepository (s : InMemory) (repo : String) : Bool := s.repos.contains (key repo)

def isOpen (s : InMemory) (repo : String) (number : Nat) : Bool :=
  match (s.get? repo).bind (·.pulls.get? number) with
  | some p => p.isOpen
  | none => false

/-! ## Carrying operations out -/

/-- The failure that is set for an operation. -/
def failureOf (s : InMemory) (op : Operation) : Option ForgeError :=
  match s.failing with
  | some (kind, e) => if kind = op.kind then some e else none
  | none => none

/-- Uses up the name of a commit if the operation makes one. -/
def advance (s : InMemory) (op : Operation) : InMemory :=
  if op.makesCommit then { s with nextCommit := s.nextCommit + 1 } else s

/-- Logs an operation and carries out `change`, which is given the hash of the commit to be made
and all repositories. -/
def perform {α : Type} (op : Operation)
    (change : String → Table String Repository →
      Except ForgeError (α × Table String Repository)) (s : InMemory) :
    Except ForgeError α × InMemory :=
  let logged := { s with log := s.log.push op }
  match s.failureOf op with
  | some e => (.error e, logged)
  | none =>
    let after := logged.advance op
    match change (commitHash s.nextCommit) s.repos with
    | .ok (a, repos) => (.ok a, { after with repos := repos })
    | .error e => (.error e, after)

/-- An operation as an attempt that takes no time. -/
def attempt {α : Type} (op : Operation)
    (change : String → Table String Repository →
      Except ForgeError (α × Table String Repository)) : Attempt InMemory ForgeError α :=
  .step fun s =>
    let (result, s) := perform op change s
    (0, result, s)

/-- A change to one repository, which has to be there. -/
def within {α : Type} (context repo : String)
    (change : Repository → Except ForgeError (α × Repository)) (repos : Table String Repository) :
    Except ForgeError (α × Table String Repository) :=
  match repos.get? (key repo) with
  | none => .error (.notFound context ("repository " ++ key repo ++ " does not exist"))
  | some r => do
    let (a, r) ← change r
    return (a, repos.insert (key repo) r)

def missingBranch (context branch : String) : ForgeError :=
  .notFound context ("branch '" ++ branch ++ "' does not exist")

def missingPull (context : String) : ForgeError := .notFound context "pull request does not exist"

namespace Repository

/-- The hash at the tip of a branch, which has to be there. -/
def tip (r : Repository) (context branch : String) : Except ForgeError String :=
  match r.branches.get? branch with
  | some sha => .ok sha
  | none => .error (missingBranch context branch)

def createBranch (context base revision branch : String) (r : Repository) :
    Except ForgeError (Unit × Repository) := do
  let tip ← r.tip context base
  if r.branches.contains branch then .error (.conflict context "branch already exists")
  else
    let sha := if revision = "" then tip else revision
    return ((), { r with branches := r.branches.insert branch sha })

def deleteBranch (context branch : String) (r : Repository) :
    Except ForgeError (Unit × Repository) := do
  let _ ← r.tip context branch
  return ((), { r with branches := r.branches.erase branch })

def openPulls (r : Repository) : List PullRequest :=
  (r.pulls.values.filter (·.isOpen)).map (·.pull)

/-- There is at most one open pull request for a branch. -/
def createPull (context head base : String) (r : Repository) :
    Except ForgeError (PullRequest × Repository) := do
  let sha ← r.tip context head
  let _ ← r.tip context base
  if r.openPulls.any (·.sourceBranch = head) then
    .error (.conflict context "a pull request for this branch already exists")
  else
    let pull : PullRequest := ⟨r.nextPull, head, base, sha, ""⟩
    return (pull,
      { r with nextPull := r.nextPull + 1, pulls := r.pulls.insert r.nextPull ⟨pull, true⟩ })

/-- Merges as commit `sha`, which becomes the tip of the target branch. -/
def merge (context : String) (number : Nat) (sha : String) (r : Repository) :
    Except ForgeError (PullRequest × Repository) :=
  match r.pulls.get? number with
  | none => .error (missingPull context)
  | some p =>
    if !p.isOpen then .error (.provider context (some 405) "pull request is not open")
    else
      let merged := { p.pull with mergeCommitSha := sha }
      .ok (merged,
        { r with
          pulls := r.pulls.insert number ⟨merged, false⟩
          branches := r.branches.insert merged.targetBranch sha })

/-- Closes a pull request, open or not, and removes its source branch. -/
def close (context : String) (number : Nat) (r : Repository) :
    Except ForgeError (Unit × Repository) :=
  match r.pulls.get? number with
  | none => .error (missingPull context)
  | some p =>
    .ok ((),
      { r with
        pulls := r.pulls.insert number { p with isOpen := false }
        branches := r.branches.erase p.pull.sourceBranch })

/-- Adds a file by commit `sha`, which becomes the tip of the branch. -/
def createFile (context path content branch sha : String) (r : Repository) :
    Except ForgeError (RepositoryFile × Repository) := do
  let _ ← r.tip context branch
  if r.files.contains (branch, path) then .error (.conflict context "file already exists")
  else
    let file : RepositoryFile := ⟨sha, content⟩
    return (file,
      { r with
        files := r.files.insert (branch, path) file
        branches := r.branches.insert branch sha })

def getFile (context path branch : String) (r : Repository) :
    Except ForgeError (RepositoryFile × Repository) :=
  match r.files.get? (branch, path) with
  | some file => .ok (file, r)
  | none => .error (.notFound context "file does not exist")

/-- Removes the first webhook whose URL contains `host`. -/
def removeHook (host : String) (r : Repository) : Repository :=
  { r with hooks := r.hooks.eraseP fun h => Text.contains h.url host }

/-- A fork has the branches and files, and nothing else. -/
def fork (r : Repository) : Repository := { branches := r.branches, files := r.files }

/-- Takes the next report for a commit; the last one stays. -/
def nextReport (sha : String) (r : Repository) : List CommitStatus × Repository :=
  match r.reports.get? sha with
  | none => ([], r)
  | some [] => ([], r)
  | some [report] => (report, r)
  | some (report :: rest) => (report, { r with reports := r.reports.insert sha rest })

end Repository

/-! ## As a forge -/

def createBranch (repo base revision branch : String) : Attempt InMemory ForgeError Unit :=
  attempt (.createBranch (key repo) base branch) fun _ =>
    let context := Context.createBranch branch (key repo)
    within context repo (Repository.createBranch context base revision branch)

def deleteBranch (repo branch : String) : Attempt InMemory ForgeError Unit :=
  attempt (.deleteBranch (key repo) branch) fun _ =>
    let context := Context.deleteBranch branch (key repo)
    within context repo (Repository.deleteBranch context branch)

def branchExists (repo branch : String) : Attempt InMemory ForgeError Bool :=
  attempt (.branchExists (key repo) branch) fun _ =>
    within (Context.checkBranch branch (key repo)) repo fun r =>
      .ok (r.branches.contains branch, r)

def listPullRequests (repo : String) : Attempt InMemory ForgeError (List PullRequest) :=
  attempt (.listPullRequests (key repo)) fun _ =>
    within (Context.listPulls (key repo)) repo fun r => .ok (r.openPulls, r)

def createPullRequest (repo head base : String) : Attempt InMemory ForgeError PullRequest :=
  attempt (.createPullRequest (key repo) head base) fun _ =>
    let context := Context.createPull head base (key repo)
    within context repo (Repository.createPull context head base)

def mergePullRequest (repo : String) (number : Nat) : Attempt InMemory ForgeError PullRequest :=
  attempt (.mergePullRequest (key repo) number) fun sha =>
    let context := Context.mergePull number (key repo)
    within context repo (Repository.merge context number sha)

def closePullRequest (repo : String) (number : Nat) : Attempt InMemory ForgeError Unit :=
  attempt (.closePullRequest (key repo) number) fun _ =>
    let context := Context.closePull number (key repo)
    within context repo (Repository.close context number)

def createFile (repo path content branch : String) : Attempt InMemory ForgeError RepositoryFile :=
  attempt (.createFile (key repo) path branch) fun sha =>
    let context := Context.createFile path branch (key repo)
    within context repo (Repository.createFile context path content branch sha)

def getFile (repo path branch : String) : Attempt InMemory ForgeError RepositoryFile :=
  attempt (.getFile (key repo) path branch) fun _ =>
    let context := Context.getFile path branch (key repo)
    within context repo (Repository.getFile context path branch)

def cleanupWebhooks (repo host : String) : Attempt InMemory ForgeError Unit :=
  attempt (.cleanupWebhooks (key repo) host) fun _ repos =>
    if host = "" then .error .emptyHost
    else
      within (Context.cleanupWebhooks (key repo)) repo (fun r => .ok ((), r.removeHook host)) repos

def forkRepository (source target : String) : Attempt InMemory ForgeError Unit :=
  attempt (.forkRepository (key source) (key target)) fun _ repos =>
    let context := Context.fork (key source) (key target)
    if repos.contains (key target) then
      .error (.conflict context "repository has already been taken")
    else do
      let (fork, repos) ← within context source (fun r => .ok (r.fork, r)) repos
      return ((), repos.insert (key target) fork)

def deleteRepository (repo : String) : Attempt InMemory ForgeError Bool :=
  attempt (.deleteRepository (key repo)) fun _ repos =>
    .ok (repos.contains (key repo), repos.erase (key repo))

def listCommitStatuses (repo sha : String) : Attempt InMemory ForgeError (List CommitStatus) :=
  attempt (.listCommitStatuses (key repo) sha) fun _ =>
    within ("list statuses for " ++ sha ++ " in " ++ key repo) repo fun r => .ok (r.nextReport sha)

/-- Repositories in memory as a forge that passes for one of `provider`. -/
def forge (provider : Provider) : Forge InMemory where
  provider := provider
  createBranch repo base revision branch := .ofAttempt (createBranch repo base revision branch)
  deleteBranch repo branch := .ofAttempt (deleteBranch repo branch)
  branchExists repo branch := .ofAttempt (branchExists repo branch)
  listPullRequests repo := .ofAttempt (listPullRequests repo)
  createPullRequest repo _ _ head base := .ofAttempt (createPullRequest repo head base)
  mergePullRequest repo number := .ofAttempt (mergePullRequest repo number)
  closePullRequest repo number := .ofAttempt (closePullRequest repo number)
  createFile repo path content branch := .ofAttempt (createFile repo path content branch)
  getFile repo path branch := .ofAttempt (getFile repo path branch)
  cleanupWebhooks repo host := .ofAttempt (cleanupWebhooks repo host)
  forkRepository source target := .ofAttempt (forkRepository source target)
  deleteRepository repo := .ofAttempt (deleteRepository repo)
  listCommitStatuses := listCommitStatuses

end InMemory
end ForgeChores
