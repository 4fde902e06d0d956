import ForgeChores.Forge.Rest

/-!
# ForgeChores.Forge.Forgejo

The Forgejo API, which Gitea shares.

* A new branch is answered with 201 and nothing else.
* A merge is answered without a body, so the pull request is read again for its merge commit.
* A pull request stays open when its branch is deleted and is closed by a request of its own.
* The statuses of a commit come in one answer.
-/

namespace ForgeChores

structure Forgejo where
  api : Client
  org : String
  timeouts : Timeouts

namespace Forgejo

open Json (Decoder Fields record)

def defaultApiBase : String := "https://codeberg.org/api/v1"

def pageStyle : Http.PageStyle := ⟨"limit", 50⟩

def connect (token org apiBase : String) (timeouts : Timeouts) : Except ForgeError Forgejo := do
  let api ← Client.connect apiBase (.token token) []
  return ⟨api, org, timeouts⟩

/-- For people to read. -/
def summary (g : Forgejo) : String :=
  "ForgejoClient \x7b api_base: " ++ Text.quoted g.api.base.text ++ ", org: " ++
    Text.quoted g.org ++ " \x7d"

/-! ## What answers hold -/

/-- A branch name and the hash of its tip. -/
def tip : Decoder (String × String) := record do
  let name ← Fields.required "ref" .text
  let sha ← Fields.defaulted "sha" "" .text
  return (name, sha)

def pullRequest : Decoder PullRequest := record do
  let number ← Fields.required "number" .natural
  let (source, headSha) ← Fields.required "head" tip
  let (target, _) ← Fields.required "base" tip
  let merged ← Fields.defaulted "merged" false .boolean
  let mergeCommit ← Fields.optional "merge_commit_sha" .text
  return ⟨number, source, target, headSha, if merged then mergeCommit.getD "" else ""⟩

def writtenFile : Decoder String := record (Fields.required "commit" commitSha)

structure FileBody where
  sha : String
  lastCommit : Option String
  content : Option String
  encoding : Option String

def FileBody.decoder : Decoder FileBody := record do
  let sha ← Fields.required "sha" .text
  let lastCommit ← Fields.optional "last_commit_sha" .text
  let content ← Fields.optional "content" .text
  let encoding ← Fields.optional "encoding" .text
  return ⟨sha, lastCommit, content, encoding⟩

def status : Decoder CommitStatus := record do
  let name ← Fields.required "context" .text
  let state ← Fields.required "status" .text
  return ⟨name, StatusState.parse state⟩

def statuses : Decoder (List CommitStatus) := record do
  let found ← Fields.optional "statuses" (.list status)
  return found.getD []

/-! ## Branches -/

def repo (g : Forgejo) (name : String) : RepoPath := RepoPath.parse name g.org

def branchUrl (g : Forgejo) (r : RepoPath) (branch : String) : Url :=
  g.api.repoUrl r ["branches", branch]

def pullUrl (g : Forgejo) (r : RepoPath) (number : Nat) (rest : List String) : Url :=
  g.api.repoUrl r (["pulls", toString number] ++ rest)

def branchExists (g : Forgejo) (name branch : String) : Attempt Exchange ForgeError Bool :=
  let r := g.repo name
  Http.isThere (Context.checkBranch branch r.fullPath) (.get (g.branchUrl r branch))

/-- The base is looked up first, so that a missing one is told apart from other refusals. -/
def createBranch (g : Forgejo) (name base revision branch : String) :
    Task Exchange ForgeError Unit := do
  let r := g.repo name
  let context := Context.createBranch branch r.fullPath
  Http.sendEmpty context (.get (g.branchUrl r base))
  let body := Json.object [("new_branch_name", .string branch),
    ("old_ref_name", .string (if revision = "" then base else revision))]
  let answer ← Http.send context (.post (g.api.repoUrl r ["branches"]) body)
  if answer.status ≠ 201 then
    Task.fail (.provider context (some answer.status) "branch creation did not answer 201 Created")
  awaitBranch branch r.fullPath g.timeouts.branch (g.branchExists name branch)

def deleteBranch (g : Forgejo) (name branch : String) : Attempt Exchange ForgeError Unit :=
  let r := g.repo name
  Http.sendEmpty (Context.deleteBranch branch r.fullPath) (.delete (g.branchUrl r branch))

/-! ## Pull requests -/

def listPullRequests (g : Forgejo) (name : String) :
    Attempt Exchange ForgeError (List PullRequest) :=
  let r := g.repo name
  Http.pages (Context.listPulls r.fullPath)
    ((g.api.repoUrl r ["pulls"]).addQuery "state" "open") pageStyle (.list pullRequest)

def createPullRequest (g : Forgejo) (name title body head base : String) :
    Attempt Exchange ForgeError PullRequest :=
  let r := g.repo name
  let request := Json.object [("head", .string head), ("base", .string base),
    ("title", .string title), ("body", .string body)]
  Http.sendJson (Context.createPull head base r.fullPath) pullRequest
    (.post (g.api.repoUrl r ["pulls"]) request)

def getPullRequest (g : Forgejo) (r : RepoPath) (number : Nat) :
    Attempt Exchange ForgeError PullRequest :=
  Http.sendJson (Context.getPull number r.fullPath) pullRequest (.get (g.pullUrl r number []))

def mergePullRequest (g : Forgejo) (name : String) (number : Nat) :
    Attempt Exchange ForgeError PullRequest := do
  let r := g.repo name
  let context := Context.mergePull number r.fullPath
  Http.sendEmpty context
    (.post (g.pullUrl r number ["merge"]) (Json.object [("Do", .string "merge")]))
  let pull ← g.getPullRequest r number
  if pull.isMerged then return pull
  else
    .fail (.provider context none "merge succeeded but the pull request has no merge commit")

def closePullRequest (g : Forgejo) (name : String) (number : Nat) :
    Attempt Exchange ForgeError Unit := do
  let r := g.repo name
  let pull ← g.getPullRequest r number
  if pull.sourceBranch ≠ "" then
    let gone ← (g.deleteBranch name pull.sourceBranch).caught
    let _ ← .ofExcept (ForgeError.ignoreNotFound gone)
  Http.sendEmpty (Context.closePull number r.fullPath)
    (.patch (g.pullUrl r number []) (Json.object [("state", .string "closed")]))

/-! ## Files and webhooks -/

def createFile (g : Forgejo) (name path content branch : String) :
    Attempt Exchange ForgeError RepositoryFile := do
  let r := g.repo name
  let body := Json.object [("content", .string (FileContent.encode content)),
    ("branch", .string branch), ("message", .string commitMessage)]
  let sha ← Http.sendJson (Context.createFile path branch r.fullPath) writtenFile
    (.post (g.api.repoUrl r ["contents", path]) body)
  return ⟨sha, content⟩

def getFile (g : Forgejo) (name path branch : String) :
    Attempt Exchange ForgeError RepositoryFile := do
  let r := g.repo name
  let context := Context.getFile path branch r.fullPath
  let url := g.api.repoUrl r ["contents", path]
  let url := if branch = "" then url else url.addQuery "ref" branch
  let file ← Http.sendJson context FileBody.decoder (.get url)
  let content ← .ofExcept (fileText context file.encoding file.content)
  return ⟨file.lastCommit.getD file.sha, content⟩

def cleanupWebhooks (g : Forgejo) (name host : String) : Attempt Exchange ForgeError Unit :=
  let r := g.repo name
  let context := Context.cleanupWebhooks r.fullPath
  Webhook.cleanup context host
    (Http.pages context (g.api.repoUrl r ["hooks"]) pageStyle (.list Webhook.configured))
    fun id => g.api.repoUrl r ["hooks", toString id]

/-! ## Repositories -/

/-- Any failure may pass until the time for a fork is over. -/
def forkRepository (g : Forgejo) (source target : String) : Task Exchange ForgeError Unit := do
  let source := g.repo source
  let target := g.repo target
  let context := Context.fork source.fullPath target.fullPath
  let body := Json.object [("organization", .string target.owner), ("name", .string target.name)]
  Wait.on (context ++ " to succeed") g.timeouts.fork do
    Http.sendEmpty context (.post (g.api.repoUrl source ["forks"]) body)
    return some ()

def deleteRepository (g : Forgejo) (name : String) : Attempt Exchange ForgeError Bool := do
  let r := g.repo name
  let context := Context.deleteRepository r.fullPath
  let url := g.api.repoUrl r []
  if ← Http.isThere context (.get url) then Http.isThere context (.delete url) else return false

def listCommitStatuses (g : Forgejo) (name sha : String) :
    Attempt Exchange ForgeError (List CommitStatus) :=
  let r := g.repo name
  Http.sendJson ("get combined status for " ++ sha ++ " in " ++ r.fullPath) statuses
    (.get (g.api.repoUrl r ["commits", sha, "status"]))

/-- Forgejo as a forge. -/
def forge (g : Forgejo) : Forge Exchange where
  provider := .forgejo
  createBranch := g.createBranch
  deleteBranch repo branch := .ofAttempt (g.deleteBranch repo branch)
  branchExists repo branch := .ofAttempt (g.branchExists repo branch)
  listPullRequests repo := .ofAttempt (g.listPullRequests repo)
  createPullRequest repo title body head base :=
    .ofAttempt (g.createPullRequest repo title body head base)
  mergePullRequest repo number := .ofAttempt (g.mergePullRequest repo number)
  closePullRequest repo number := .ofAttempt (g.closePullRequest repo number)
  createFile repo path content branch := .ofAttempt (g.createFile repo path content branch)
  getFile repo path branch := .ofAttempt (g.getFile repo path branch)
  cleanupWebhooks repo host := .ofAttempt (g.cleanupWebhooks repo host)
  forkRepository := g.forkRepository
  deleteRepository repo := .ofAttempt (g.deleteRepository repo)
  listCommitStatuses := g.listCommitStatuses

end Forgejo
end ForgeChores
