import ForgeChores.Forge.Rest

/-!
# ForgeChores.Forge.GitHub

The GitHub API.

* A branch is a git ref; creating one needs the hash it starts from.
* A pull request carries a hash of a test merge while it is open, so its merge commit counts only
  once `merged_at` is set.
* Closing a pull request is done by deleting its branch.
-/

namespace ForgeChores

structure GitHub where
  api : Client
  org : String
  timeouts : Timeouts

namespace GitHub

open Json (Decoder Fields record)

def defaultApiBase : String := "https://api.github.com"

def apiVersion : String := "2022-11-28"

def pageStyle : Http.PageStyle := ⟨"per_page", 100⟩

def connect (token org apiBase : String) (timeouts : Timeouts) : Except ForgeError GitHub := do
  let api ← Client.connect apiBase (.bearer token) [("x-github-api-version", apiVersion)]
  return ⟨api, org, timeouts⟩

/-- For people to read. -/
def summary (g : GitHub) : String :=
  "GitHubClient \x7b api_base: " ++ Text.quoted g.api.base.text ++ ", org: " ++
    Text.quoted g.org ++ " \x7d"

/-! ## What answers hold -/

/-- A branch name and the hash of its tip. -/
def tip : Decoder (String × String) := record do
  let name ← Fields.required "ref" .text
  let sha ← Fields.required "sha" .text
  return (name, sha)

def pullRequest : Decoder PullRequest := record do
  let number ← Fields.required "number" .natural
  let (source, headSha) ← Fields.required "head" tip
  let (target, _) ← Fields.required "base" tip
  let mergeCommit ← Fields.optional "merge_commit_sha" .text
  let mergedAt ← Fields.optional "merged_at" .text
  return ⟨number, source, target, headSha, if mergedAt.isSome then mergeCommit.getD "" else ""⟩

def gitRef : Decoder String := record (Fields.required "object" commitSha)

def mergeResult : Decoder (Option String) := record (Fields.optional "sha" .text)

def writtenFile : Decoder String := record (Fields.required "commit" commitSha)

/-- Content and encoding. -/
def fileBody : Decoder (Option String × Option String) := record do
  let content ← Fields.optional "content" .text
  let encoding ← Fields.optional "encoding" .text
  return (content, encoding)

/-- A check that has completed without a conclusion counts as successful. -/
def checkRun : Decoder CommitStatus := record do
  let name ← Fields.required "name" .text
  let status ← Fields.required "status" .text
  let conclusion ← Fields.optional "conclusion" .text
  let word := if status = "completed" then conclusion.getD "success" else status
  return ⟨name, StatusState.parse word⟩

def checkRuns : Decoder (List CommitStatus) :=
  record (Fields.required "check_runs" (.list checkRun))

/-! ## Operations -/

def repo (g : GitHub) (name : String) : RepoPath := RepoPath.parse name g.org

def branchUrl (g : GitHub) (r : RepoPath) (refs branch : String) : Url :=
  g.api.repoUrl r [refs, "heads/" ++ branch]

def pullUrl (g : GitHub) (r : RepoPath) (number : Nat) (rest : List String) : Url :=
  g.api.repoUrl r (["pulls", toString number] ++ rest)

def branchExists (g : GitHub) (name branch : String) : Attempt Exchange ForgeError Bool :=
  let r := g.repo name
  Http.isThere (Context.checkBranch branch r.fullPath) (.get (g.branchUrl r "git/ref" branch))

def createBranch (g : GitHub) (name base revision branch : String) :
    Task Exchange ForgeError Unit := do
  let r := g.repo name
  let context := Context.createBranch branch r.fullPath
  let tip ← Http.sendJson context gitRef (.get (g.branchUrl r "git/ref" base))
  let sha := if revision = "" then tip else revision
  let body := Json.object [("ref", .string ("refs/heads/" ++ branch)), ("sha", .string sha)]
  Http.sendEmpty context (.post (g.api.repoUrl r ["git/refs"]) body)
  awaitBranch branch r.fullPath g.timeouts.branch (g.branchExists name branch)

def deleteBranch (g : GitHub) (name branch : String) : Attempt Exchange ForgeError Unit :=
  let r := g.repo name
  Http.sendEmpty (Context.deleteBranch branch r.fullPath)
    (.delete (g.branchUrl r "git/refs" branch))

def listPullRequests (g : GitHub) (name : String) :
    Attempt Exchange ForgeError (List PullRequest) :=
  let r := g.repo name
  Http.pages (Context.listPulls r.fullPath)
    ((g.api.repoUrl r ["pulls"]).addQuery "state" "open") pageStyle (.list pullRequest)

def createPullRequest (g : GitHub) (name title body head base : String) :
    Attempt Exchange ForgeError PullRequest :=
  let r := g.repo name
  let request := Json.object [("title", .string title), ("body", .string body),
    ("head", .string head), ("base", .string base)]
  Http.sendJson (Context.createPull head base r.fullPath) pullRequest
    (.post (g.api.repoUrl r ["pulls"]) request)

def getPullRequest (g : GitHub) (r : RepoPath) (number : Nat) :
    Attempt Exchange ForgeError PullRequest :=
  Http.sendJson (Context.getPull number r.fullPath) pullRequest (.get (g.pullUrl r number []))

/-- A merge that meets a conflict asks for the branch to be updated, so that a later one may go
through, and still fails with that conflict. -/
def mergePullRequest (g : GitHub) (name : String) (number : Nat) :
    Attempt Exchange ForgeError PullRequest := do
  let r := g.repo name
  let context := Context.mergePull number r.fullPath
  let merge := Request.put (g.pullUrl r number ["merge"])
    (Json.object [("merge_method", .string "merge")])
  match ← (Http.sendJson context mergeResult merge).caught with
  | .error e =>
    if e.kind = .conflict then
      let update := Request.put (g.pullUrl r number ["update-branch"]) (Json.object [])
      let _ ← (Http.sendEmpty context update).caught
    .fail e
  | .ok sha =>
    let pull ← g.getPullRequest r number
    return if pull.isMerged then pull else { pull with mergeCommitSha := sha.getD "" }

def closePullRequest (g : GitHub) (name : String) (number : Nat) :
    Attempt Exchange ForgeError Unit := do
  let r := g.repo name
  let pull ← g.getPullRequest r number
  let gone ← (g.deleteBranch name pull.sourceBranch).caught
  let _ ← .ofExcept (ForgeError.ignoreNotFound gone)

def createFile (g : GitHub) (name path content branch : String) :
    Attempt Exchange ForgeError RepositoryFile := do
  let r := g.repo name
  let body := Json.object [("message", .string commitMessage),
    ("content", .string (FileContent.encode content)), ("branch", .string branch)]
  let sha ← Http.sendJson (Context.createFile path branch r.fullPath) writtenFile
    (.put (g.api.repoUrl r ["contents", path]) body)
  return ⟨sha, content⟩

/-- The hash of the last commit that changed a file. -/
def lastCommit (g : GitHub) (r : RepoPath) (context path branch : String) :
    Attempt Exchange ForgeError String := do
  let url := (g.api.repoUrl r ["commits"]).addQueries
    [("path", path), ("sha", branch), ("per_page", "1")]
  let commits ← Http.sendJson context (.list commitSha) (.get url)
  return commits.head?.getD ""

def getFile (g : GitHub) (name path branch : String) :
    Attempt Exchange ForgeError RepositoryFile := do
  let r := g.repo name
  let context := Context.getFile path branch r.fullPath
  let url := g.api.repoUrl r ["contents", path]
  let url := if branch = "" then url else url.addQuery "ref" branch
  let (content, encoding) ← Http.sendJson context fileBody (.get url)
  let content ← .ofExcept (fileText context encoding content)
  let sha ← g.lastCommit r context path branch
  return ⟨sha, content⟩

def cleanupWebhooks (g : GitHub) (name host : String) : Attempt Exchange ForgeError Unit :=
  let r := g.repo name
  let context := Context.cleanupWebhooks r.fullPath
  Webhook.cleanup context host
    (Http.pages context (g.api.repoUrl r ["hooks"]) pageStyle (.list Webhook.configured))
    fun id => g.api.repoUrl r ["hooks", toString id]

/-- Asks for a fork. A transient failure, or a refusal with 403, may pass; any other failure is
the outcome. -/
def requestFork (context : String) (q : Request) :
    Attempt Exchange ForgeError (Option (Except ForgeError Unit)) := do
  match ← (Http.sendEmpty context q).caught with
  | .ok () => return some (.ok ())
  | .error e =>
    if e.isTransient || e.status? == some 403 then .fail e else return some (.error e)

/-- A fork can be used once it has a commit. -/
def forkRepository (g : GitHub) (source target : String) : Task Exchange ForgeError Unit := do
  let source := g.repo source
  let target := g.repo target
  let context := Context.fork source.fullPath target.fullPath
  let body := Json.object [("organization", .string target.owner), ("name", .string target.name),
    ("default_branch_only", .bool false)]
  let accepted ← Wait.on (context ++ " to be accepted") g.timeouts.fork
    (requestFork context (.post (g.api.repoUrl source ["forks"]) body))
  Task.ofExcept accepted
  Wait.on (context ++ " to be ready") g.timeouts.forkReady do
    let url := (g.api.repoUrl target ["commits"]).addQuery "per_page" "1"
    let commits ← Http.sendJson context (.list commitSha) (.get url)
    return if commits.isEmpty then none else some ()

def deleteRepository (g : GitHub) (name : String) : Attempt Exchange ForgeError Bool := do
  let r := g.repo name
  let context := Context.deleteRepository r.fullPath
  let url := g.api.repoUrl r []
  if ← Http.isThere context (.get url) then Http.isThere context (.delete url) else return false

def listCommitStatuses (g : GitHub) (name sha : String) :
    Attempt Exchange ForgeError (List CommitStatus) :=
  let r := g.repo name
  Http.pages ("list check runs for " ++ sha ++ " in " ++ r.fullPath)
    (g.api.repoUrl r ["commits", sha, "check-runs"]) pageStyle checkRuns

/-- GitHub as a forge. -/
def forge (g : GitHub) : Forge Exchange where
  provider := .gitHub
  createBranch := g.createBranch
  deleteBranch repo branch := .ofAttempt (g.deleteBranch repo branch)
  branchExists repo branch := .ofAttempt (g.branchExists repo branch)
  listPullRequests repo := .ofAttempt (g.listPullRequests repo)
  createPullRequest repo title body head base :=
    .ofAttempt (g.createPullRequest repo title body head base)
  mergePullRequest repo number := .ofAttempt (g.mergePullRequest repo number)
  closePullRequest repo number := .ofAttempt (g.closePullRequest repo number)
  createFile repo path content branch := .ofAttempt (g.createFile repo path content branch)
  getFile repo path branch := .ofAttempt (g.getFile repo path branch)
  cleanupWebhooks repo host := .ofAttempt (g.cleanupWebhooks repo host)
  forkRepository := g.forkRepository
  deleteRepository repo := .ofAttempt (g.deleteRepository repo)
  listCommitStatuses := g.listCommitStatuses

end GitHub
end ForgeChores
