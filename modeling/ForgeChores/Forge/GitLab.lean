import ForgeChores.Forge.Rest

/-!
# ForgeChores.Forge.GitLab

The GitLab API.

* A project is addressed by its full path in one segment, and so is each branch and file.
* Listing merge requests is tried again on transient failures, up to `listAttempts` times, with
  pauses that double.
* A fork is imported in the background; its `import_status` tells when that is over.
* Deleting a project renames it first. A renamed project is deleted once more, for good.
-/

namespace ForgeChores

structure GitLab where
  api : Client
  group : String
  timeouts : Timeouts
  /-- The pause after the first failed attempt at a list. -/
  retryDelay : Nat

namespace GitLab

open Json (Decoder Fields record)

def defaultApiBase : String := "https://gitlab.com/api/v4"

def pageStyle : Http.PageStyle := ⟨"per_page", 100⟩

def listAttempts : Nat := 5

def defaultRetryDelay : Nat := Duration.seconds 5

def connect (token group apiBase : String) (timeouts : Timeouts) (retryDelay : Nat) :
    Except ForgeError GitLab := do
  let api ← Client.connect apiBase (.privateToken token) []
  return ⟨api, group, timeouts, retryDelay⟩

/-- For people to read. -/
def summary (g : GitLab) : String :=
  "GitLabClient \x7b api_base: " ++ Text.quoted g.api.base.text ++ ", group: " ++
    Text.quoted g.group ++ " \x7d"

/-! ## What answers hold -/

/-- A merge request goes by the number it has in its project. -/
def mergeRequest : Decoder PullRequest := record do
  let number ← Fields.required "iid" .natural
  let source ← Fields.required "source_branch" .text
  let target ← Fields.required "target_branch" .text
  let headSha ← Fields.optional "sha" .text
  let mergeCommit ← Fields.optional "merge_commit_sha" .text
  return ⟨number, source, target, headSha.getD "", mergeCommit.getD ""⟩

structure Project where
  id : Nat
  path : String
  importStatus : Option String

def Project.decoder : Decoder Project := record do
  let id ← Fields.required "id" .natural
  let path ← Fields.required "path_with_namespace" .text
  let importStatus ← Fields.optional "import_status" .text
  return ⟨id, path, importStatus⟩

structure FileBody where
  content : String
  encoding : String
  commit : String

def FileBody.decoder : Decoder FileBody := record do
  let content ← Fields.required "content" .text
  let encoding ← Fields.defaulted "encoding" "" .text
  let commit ← Fields.required "commit_id" .text
  return ⟨content, encoding, commit⟩

def hook : Decoder Webhook := record do
  let id ← Fields.required "id" .natural
  let url ← Fields.required "url" .text
  return ⟨id, some url⟩

def status : Decoder CommitStatus := record do
  let name ← Fields.required "name" .text
  let state ← Fields.required "status" .text
  return ⟨name, StatusState.parse state⟩

/-! ## Names -/

/-- The full path of a project. -/
def project (g : GitLab) (repo : String) : String := (RepoPath.parse repo g.group).fullPath

def branchUrl (g : GitLab) (project branch : String) : Url :=
  g.api.projectUrl project ["repository", "branches", branch]

def mergeRequestUrl (g : GitLab) (project : String) (number : Nat) (rest : List String) : Url :=
  g.api.projectUrl project (["merge_requests", toString number] ++ rest)

def fileUrl (g : GitLab) (project path : String) : Url :=
  g.api.projectUrl project ["repository", "files", path]

def listContext (project : String) : String := "list merge requests in " ++ project
def createContext (head base project : String) : String :=
  "create MR " ++ head ++ " -> " ++ base ++ " in " ++ project
def getContext (number : Nat) (project : String) : String :=
  "get MR !" ++ toString number ++ " in " ++ project
def mergeContext (number : Nat) (project : String) : String :=
  "merge MR !" ++ toString number ++ " in " ++ project
def closeContext (number : Nat) (project : String) : String :=
  "close MR !" ++ toString number ++ " in " ++ project
def deleteContext (project : String) : String := "delete project " ++ project

/-! ## Branches -/

def branchExists (g : GitLab) (repo branch : String) : Attempt Exchange ForgeError Bool :=
  let project := g.project repo
  Http.isThere (Context.checkBranch branch project) (.get (g.branchUrl project branch))

/-- The base is looked up first, because an unknown one is refused without being named. -/
def createBranch (g : GitLab) (repo base revision branch : String) :
    Task Exchange ForgeError Unit := do
  let project := g.project repo
  let context := Context.createBranch branch project
  Http.sendEmpty context (.get (g.branchUrl project base))
  let url := (g.api.projectUrl project ["repository", "branches"]).addQueries
    [("branch", branch), ("ref", if revision = "" then base else revision)]
  Http.sendEmpty context (.post url none)
  awaitBranch branch project g.timeouts.branch (g.branchExists repo branch)

def deleteBranch (g : GitLab) (repo branch : String) : Attempt Exchange ForgeError Unit :=
  let project := g.project repo
  Http.sendEmpty (Context.deleteBranch branch project) (.delete (g.branchUrl project branch))

/-! ## Merge requests -/

/-- Tries up to `attempts` times while failures are transient, and pauses in between. -/
def retrying {α : Type} (m : Attempt Exchange ForgeError α) :
    (attempts : Nat) → (delay : Nat) → Task Exchange ForgeError α
  | 0, _ => m
  | 1, _ => m
  | attempts + 2, delay => do
    match ← m.caught with
    | .ok a => return a
    | .error e =>
      if e.isTransient then
        Task.pause delay
        retrying m (attempts + 1) (2 * delay)
      else .fail e

def listOnce (g : GitLab) (repo : String) : Attempt Exchange ForgeError (List PullRequest) :=
  let project := g.project repo
  Http.pages (listContext project)
    ((g.api.projectUrl project ["merge_requests"]).addQuery "state" "opened") pageStyle
    (.list mergeRequest)

def listPullRequests (g : GitLab) (repo : String) : Task Exchange ForgeError (List PullRequest) :=
  retrying (g.listOnce repo) listAttempts g.retryDelay

def createPullRequest (g : GitLab) (repo title body head base : String) :
    Attempt Exchange ForgeError PullRequest :=
  let project := g.project repo
  let request := Json.object [("source_branch", .string head), ("target_branch", .string base),
    ("title", .string title), ("description", .string body)]
  Http.sendJson (createContext head base project) mergeRequest
    (.post (g.api.projectUrl project ["merge_requests"]) request)

def getPullRequest (g : GitLab) (project : String) (number : Nat) :
    Attempt Exchange ForgeError PullRequest :=
  Http.sendJson (getContext number project) mergeRequest
    (.get (g.mergeRequestUrl project number []))

/-- Waits for the merge commit, which may be recorded after the merge has been answered. -/
def awaitMergeCommit (g : GitLab) (project : String) (number : Nat) :
    Task Exchange WaitTimeout PullRequest :=
  Wait.poll ForgeError.message ("merge commit of MR !" ++ toString number ++ " in " ++ project)
    g.timeouts.branch do
      let pull ← g.getPullRequest project number
      return if pull.isMerged then some pull else none

def mergePullRequest (g : GitLab) (repo : String) (number : Nat) :
    Task Exchange ForgeError PullRequest := do
  let project := g.project repo
  let context := mergeContext number project
  let pull ← Http.sendJson context mergeRequest
    (.put (g.mergeRequestUrl project number ["merge"]) (Json.object [("squash", .bool false)]))
  if pull.isMerged then return pull
  (g.awaitMergeCommit project number).mapError fun t =>
    .provider context none ("merge reported no merge commit: " ++ t.message)

def closePullRequest (g : GitLab) (repo : String) (number : Nat) :
    Attempt Exchange ForgeError Unit := do
  let project := g.project repo
  let pull ← g.getPullRequest project number
  let gone ← (g.deleteBranch repo pull.sourceBranch).caught
  let _ ← .ofExcept (ForgeError.ignoreNotFound gone)
  Http.sendEmpty (closeContext number project)
    (.put (g.mergeRequestUrl project number []) (Json.object [("state_event", .string "close")]))

/-! ## Files and webhooks -/

def getFile (g : GitLab) (repo path branch : String) :
    Attempt Exchange ForgeError RepositoryFile := do
  let project := g.project repo
  let context := Context.getFile path branch project
  let file ← Http.sendJson context FileBody.decoder
    (.get ((g.fileUrl project path).addQuery "ref" branch))
  let content ← .ofExcept (fileText context (some file.encoding) (some file.content))
  return ⟨file.commit, content⟩

/-- The answer to a new file names no commit, so the file is read back. -/
def createFile (g : GitLab) (repo path content branch : String) :
    Attempt Exchange ForgeError RepositoryFile := do
  let project := g.project repo
  let body := Json.object [("branch", .string branch), ("content", .string content),
    ("commit_message", .string commitMessage)]
  Http.sendEmpty (Context.createFile path branch project) (.post (g.fileUrl project path) body)
  g.getFile repo path branch

def cleanupWebhooks (g : GitLab) (repo host : String) : Attempt Exchange ForgeError Unit :=
  let project := g.project repo
  let context := Context.cleanupWebhooks project
  Webhook.cleanup context host
    (Http.pages context (g.api.projectUrl project ["hooks"]) pageStyle (.list hook))
    fun id => g.api.projectUrl project ["hooks", toString id]

/-! ## Forks -/

def getProject (g : GitLab) (context project : String) : Attempt Exchange ForgeError Project :=
  Http.sendJson context Project.decoder (.get (g.api.projectUrl project []))

/-- Whether an import has come to an end, a good one or a bad one. -/
def isImportOver (status : String) : Bool :=
  status == "finished" || status == "failed" || status == "timeout"

/-- How the import of a project ended, once it has. -/
def importEnd (g : GitLab) (context : String) (id : Nat) :
    Attempt Exchange ForgeError (Option String) := do
  let project ← g.getProject context (toString id)
  let status := project.importStatus.getD ""
  return if isImportOver status then some status else none

def forkRepository (g : GitLab) (source target : String) : Task Exchange ForgeError Unit := do
  let source := g.project source
  let target := RepoPath.parse target g.group
  let context := Context.fork source target.fullPath
  let body := Json.object [("name", .string target.name), ("path", .string target.name),
    ("namespace_path", .string target.owner)]
  let fork ← Wait.on (context ++ " to be accepted") g.timeouts.fork do
    let project ← Http.sendJson context Project.decoder
      (.post (g.api.projectUrl source ["fork"]) body)
    return some project
  let status ← Wait.on ("import of " ++ target.fullPath ++ " to finish") g.timeouts.forkReady
    (g.importEnd context fork.id)
  if status ≠ "finished" then
    Task.fail (.provider context none ("fork import ended with import_status=" ++ status))

/-! ## Deleting -/

/-- What a first delete puts behind the path of a project. -/
def deletedMarkers : List String := ["-deleted-", "-deletion_scheduled-"]

/-- Whether `actual` is the path that `requested` got by a first delete. -/
def isSoftDeleted (requested actual : String) : Bool :=
  actual != requested && deletedMarkers.any fun marker => Text.contains actual (requested ++ marker)

def permanentUrl (g : GitLab) (path : String) : Url :=
  (g.api.projectUrl path []).addQueries [("full_path", path), ("permanently_remove", "true")]

/-- Deletes a renamed project for good. -/
def deletePermanently (g : GitLab) (path : String) : Attempt Exchange ForgeError Unit :=
  Http.sendEmpty ("permanently delete project " ++ path) (.delete (g.permanentUrl path))

/-- Has the project gone? One that has only been renamed is deleted for good. -/
def deleted (g : GitLab) (context project : String) :
    Attempt Exchange ForgeError (Option Unit) := do
  match ← (g.getProject context project).caught with
  | .error e => if e.isNotFound then return some () else .fail e
  | .ok found =>
    if isSoftDeleted project found.path then
      g.deletePermanently found.path
      return some ()
    else return none

def deleteRepository (g : GitLab) (repo : String) : Task Exchange ForgeError Bool := do
  let project := g.project repo
  let context := deleteContext project
  match ← (g.getProject context project).caught with
  | .error e => if e.isNotFound then return false else .fail e
  | .ok found =>
    if isSoftDeleted project found.path then
      g.deletePermanently found.path
      return true
    else if ← Http.isThere context (.delete (g.api.projectUrl project [])) then
      Wait.on ("project " ++ project ++ " to be deleted") g.timeouts.delete
        (g.deleted context project)
      return true
    else return false

def listCommitStatuses (g : GitLab) (repo sha : String) :
    Attempt Exchange ForgeError (List CommitStatus) :=
  let project := g.project repo
  Http.pages ("list commit statuses for " ++ sha ++ " in " ++ project)
    (g.api.projectUrl project ["repository", "commits", sha, "statuses"]) pageStyle (.list status)

/-- GitLab as a forge. -/
def forge (g : GitLab) : Forge Exchange where
  provider := .gitLab
  createBranch := g.createBranch
  deleteBranch repo branch := .ofAttempt (g.deleteBranch repo branch)
  branchExists repo branch := .ofAttempt (g.branchExists repo branch)
  listPullRequests := g.listPullRequests
  createPullRequest repo title body head base :=
    .ofAttempt (g.createPullRequest repo title body head base)
  mergePullRequest := g.mergePullRequest
  closePullRequest repo number := .ofAttempt (g.closePullRequest repo number)
  createFile repo path content branch := .ofAttempt (g.createFile repo path content branch)
  getFile repo path branch := .ofAttempt (g.getFile repo path branch)
  cleanupWebhooks repo host := .ofAttempt (g.cleanupWebhooks repo host)
  forkRepository := g.forkRepository
  deleteRepository := g.deleteRepository
  listCommitStatuses := g.listCommitStatuses

end GitLab
end ForgeChores
