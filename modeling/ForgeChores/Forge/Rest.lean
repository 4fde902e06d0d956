import ForgeChores.FileContent
import ForgeChores.Forge
import ForgeChores.Http.Client
import ForgeChores.Http.Paging

/-!
# ForgeChores.Forge.Rest

What forges with a REST API have in common: where repositories lie, how a branch is awaited, how
one webhook is picked and how a file body is read.
-/

namespace ForgeChores

/-- The URL of something in a repository that is addressed by owner and name. A part with slashes,
such as a branch or a file path, makes several segments; empty ones are left out. -/
def Client.repoUrl (c : Client) (r : RepoPath) (rest : List String) : Url :=
  c.url (["repos", r.owner, r.name] ++
    rest.flatMap fun part => (Text.pieces '/' part).filter (· ≠ ""))

/-- The URL of something in a project that is addressed by its full path in one segment. -/
def Client.projectUrl (c : Client) (project : String) (rest : List String) : Url :=
  c.url (["projects", project] ++ rest)

@[simp] theorem Client.isHttp_repoUrl (c : Client) (r : RepoPath) (rest : List String) :
    (c.repoUrl r rest).isHttp = c.base.isHttp := Url.isHttp_append _ _

@[simp] theorem Client.isHttp_projectUrl (c : Client) (project : String) (rest : List String) :
    (c.projectUrl project rest).isHttp = c.base.isHttp := Url.isHttp_append _ _

/-- Waits until a branch can be seen. -/
def awaitBranch {σ : Type} (branch repo : String) (o : WaitOptions)
    (isThere : Attempt σ ForgeError Bool) : Task σ ForgeError Unit :=
  Wait.on (Context.branchToExist branch repo) o do
    return if ← isThere then some () else none

/-! ## Webhooks -/

/-- A webhook; one without a URL matches nothing. -/
structure Webhook where
  id : Nat
  url : Option String

namespace Webhook

def matchesHost (host : String) (h : Webhook) : Bool :=
  match h.url with
  | some url => Text.contains url host
  | none => false

/-- Reads all webhooks and removes the first that matches. -/
def cleanup (context host : String) (all : Attempt Exchange ForgeError (List Webhook))
    (urlOf : Nat → Url) : Attempt Exchange ForgeError Unit :=
  if host = "" then .fail .emptyHost
  else do
    let hooks ← all
    match hooks.find? (matchesHost host) with
    | some hook => Http.sendEmpty context (.delete (urlOf hook.id))
    | none => return ()

/-- A webhook whose URL stands in its configuration. -/
def configured : Json.Decoder Webhook := Json.record do
  let id ← Json.Fields.required "id" .natural
  let url ← Json.Fields.required "config" (Json.record (Json.Fields.optional "url" .text))
  return ⟨id, url⟩

end Webhook

/-! ## Files -/

/-- The text of a file body. Only base64 is decoded, and a missing body is empty. -/
def fileText (context : String) (encoding content : Option String) : Except ForgeError String :=
  match encoding, content with
  | some "base64", some raw => FileContent.decode context raw
  | _, some raw => .ok raw
  | _, none => .ok ""

def commitMessage : String := "e2e test commit message"

/-- A commit, known by its hash. -/
def commitSha : Json.Decoder String := Json.record (Json.Fields.required "sha" .text)

end ForgeChores
