import ForgeChores.Forge.Forgejo
import ForgeChores.Forge.GitHub
import ForgeChores.Forge.GitLab
import ForgeChores.Proofs.Forge.Connected
import ForgeChores.Proofs.Http.PagingBatches
import ForgeChores.Proofs.Json.Record
import ForgeChores.Proofs.Text.Search

/-!
# ForgeChores.Proofs.Forge.WebhookCleanup

A cleanup removes one webhook at most: the first whose URL contains the given text, in the order in
which the pages of webhooks are read.

* `WebhookList.listed_iff`: a listing gives the webhooks exactly if it is read to its end.
* `WebhookList.cleansUp_cleanup`: what a cleanup sends, given where the webhooks are listed and
  where each of them is.
* `Webhook.configured_eq_some_iff`, `GitLab.hook_eq_some_iff`: where the two fields of a webhook
  stand in an answer.
-/

namespace ForgeChores

/-! ## Removing a webhook -/

/-- The URL contains the text. A webhook without a URL matches nothing. -/
def Webhook.Matches (host : String) (hook : Webhook) : Prop :=
  ∃ url, hook.url = some url ∧ host.toList <:+: url.toList

theorem Webhook.matchesHost_iff {host : String} {hook : Webhook} :
    hook.matchesHost host = true ↔ hook.Matches host := by
  unfold matchesHost Matches
  cases hook.url with
  | none => simp
  | some url => simp [Text.contains_iff_isInfix]

/-- Where a forge lists the webhooks of a repository, and where each of them is. -/
structure WebhookList where
  context : String
  url : Url
  style : Http.PageStyle
  items : Json.Decoder (List Webhook)
  hookUrl : (id : Nat) → Url

namespace WebhookList

def all (l : WebhookList) : Attempt Exchange ForgeError (List Webhook) :=
  Http.pages l.context l.url l.style l.items

def cleanup (l : WebhookList) (host : String) : Attempt Exchange ForgeError Unit :=
  Webhook.cleanup l.context host l.all l.hookUrl

def lookups (l : WebhookList) (x : Exchange) : List Request :=
  (Http.pagesAsked l.context l.url l.style l.items x).map (Http.pageRequest l.url l.style)

/-- The webhooks, page after page, if every page is read. -/
def Listed (l : WebhookList) (x : Exchange) (hooks : List Webhook) : Prop :=
  l.url.isHttp = true ∧ ∃ batches,
    Http.BatchesFrom l.context l.url l.style l.items x.pending 1 batches ∧ hooks = batches.flatten

/-- The webhooks are looked up, and the first that matches is removed. -/
def CleansUp (l : WebhookList) (host : String) (x : Exchange)
    (t : Timed Exchange (Except ForgeError Unit)) : Prop :=
  if host = "" then t.result = .error .emptyHost ∧ t.state = x
  else ∃ removals, t.state = x.after (l.lookups x ++ removals) ∧
    (∀ before hook rest, l.Listed x (before ++ hook :: rest) →
      (∀ h ∈ before, ¬ h.Matches host) → hook.Matches host →
      removals = [.delete (l.hookUrl hook.id)]) ∧
    ((¬ ∃ hooks, l.Listed x hooks ∧ ∃ hook ∈ hooks, hook.Matches host) → removals = [])

/-- A page is read as a list of webhooks, each of which is what `P` says of its item. -/
def Reads (l : WebhookList) (P : Webhook → Json.Written → Prop) : Prop :=
  ∀ w hooks, l.items w = some hooks ↔ w.IsList P hooks

variable {l : WebhookList} {host : String} {x : Exchange}

theorem listed_iff {hooks : List Webhook} :
    l.Listed x hooks ↔ (Task.ofAttempt l.all x).result = .ok hooks := Http.pages_ok_iff.symm

def removal? (l : WebhookList) (host : String) (hooks : List Webhook) : Option Request :=
  (hooks.find? (Webhook.matchesHost host)).map fun hook => .delete (l.hookUrl hook.id)

theorem removal?_of_first {before rest : List Webhook} {hook : Webhook}
    (hbefore : ∀ h ∈ before, ¬ h.Matches host) (hmatch : hook.Matches host) :
    l.removal? host (before ++ hook :: rest) = some (.delete (l.hookUrl hook.id)) := by
  have hfind : (before ++ hook :: rest).find? (Webhook.matchesHost host) = some hook := by
    rw [List.find?_eq_some_iff_append]
    refine ⟨Webhook.matchesHost_iff.mpr hmatch, before, rest, rfl, fun h hh => ?_⟩
    rw [Bool.not_eq_true', ← Bool.not_eq_true, Webhook.matchesHost_iff]
    exact hbefore h hh
  rw [removal?, hfind, Option.map_some]

theorem removal?_of_none {hooks : List Webhook} (hnone : ∀ hook ∈ hooks, ¬ hook.Matches host) :
    l.removal? host hooks = none := by
  have hfind : hooks.find? (Webhook.matchesHost host) = none := by
    rw [List.find?_eq_none]
    exact fun hook hh hmatch => hnone hook hh (Webhook.matchesHost_iff.mp hmatch)
  rw [removal?, hfind, Option.map_none]

theorem state_cleanup_of_ok (hhost : host ≠ "") (hhook : ∀ id, (l.hookUrl id).isHttp = true)
    {hooks : List Webhook} (hall : (Task.ofAttempt l.all x).result = .ok hooks) :
    (Task.ofAttempt (l.cleanup host) x).state =
      x.after (l.lookups x ++ (l.removal? host hooks).toList) := by
  have hstate : (Task.ofAttempt l.all x).state = x.after (l.lookups x) := Http.state_pages x
  rcases hrun : Task.ofAttempt l.all x with ⟨result, spent, s⟩
  rw [hrun] at hall hstate
  obtain rfl : result = .ok hooks := hall
  obtain rfl : s = x.after (l.lookups x) := hstate
  rw [cleanup, Webhook.cleanup, if_neg hhost, Task.ofAttempt_bind, Task.bind_of_ok hrun, removal?]
  cases hooks.find? (Webhook.matchesHost host) with
  | none => simp only [Option.map_none, Option.toList_none, List.append_nil]; rfl
  | some hook =>
    have hq : (Request.delete (l.hookUrl hook.id)).url.isHttp = true := hhook hook.id
    simp only [Http.sendEmpty_eq_ask hq, Http.ofAttempt_ask, Exchange.after_after, Option.map_some,
      Option.toList_some]

theorem state_cleanup_of_error (hhost : host ≠ "") {e : ForgeError}
    (hall : (Task.ofAttempt l.all x).result = .error e) :
    (Task.ofAttempt (l.cleanup host) x).state = x.after (l.lookups x) := by
  have hstate : (Task.ofAttempt l.all x).state = x.after (l.lookups x) := Http.state_pages x
  rcases hrun : Task.ofAttempt l.all x with ⟨result, spent, s⟩
  rw [hrun] at hall hstate
  obtain rfl : result = .error e := hall
  rw [cleanup, Webhook.cleanup, if_neg hhost, Task.ofAttempt_bind, Task.bind_of_error hrun]
  exact hstate

theorem cleansUp_cleanup (hhook : ∀ id, (l.hookUrl id).isHttp = l.url.isHttp) :
    l.CleansUp host x (Task.ofAttempt (l.cleanup host) x) := by
  unfold CleansUp
  by_cases hhost : host = ""
  · rw [if_pos hhost, cleanup, Webhook.cleanup, if_pos hhost]
    exact ⟨rfl, rfl⟩
  · rw [if_neg hhost]
    cases hall : (Task.ofAttempt l.all x).result with
    | error e =>
      refine ⟨[], ?_, ?_, fun _ => rfl⟩
      · rw [List.append_nil]
        exact state_cleanup_of_error hhost hall
      · intro before hook rest hlisted
        rw [listed_iff, hall] at hlisted
        cases hlisted
    | ok hooks =>
      have hlisted : l.Listed x hooks := listed_iff.mpr hall
      have hhooks : ∀ id, (l.hookUrl id).isHttp = true := fun id => (hhook id).trans hlisted.1
      refine ⟨_, state_cleanup_of_ok hhost hhooks hall, ?_, ?_⟩
      · intro before hook rest hread hbefore hmatch
        -- the pages make one list only
        rw [listed_iff, hall] at hread
        obtain rfl : hooks = before ++ hook :: rest := Except.ok.inj hread
        rw [removal?_of_first hbefore hmatch, Option.toList_some]
      · intro hnone
        rw [removal?_of_none fun hook hh hmatch => hnone ⟨hooks, hlisted, hook, hh, hmatch⟩,
          Option.toList_none]

end WebhookList

/-! ## What is read of a webhook -/

/-- A webhook whose URL stands in its configuration, if it has one. -/
def Webhook.IsConfigured (hook : Webhook) (w : Json.Written) : Prop :=
  ∃ id config url, w.Spells [("id", some id), ("config", some config)] ∧
    config.Spells [("url", url)] ∧ id.IsNatural hook.id ∧ Json.Written.IsTextOrMissing hook.url url

/-- A webhook whose URL stands beside its id. -/
def Webhook.IsPlain (hook : Webhook) (w : Json.Written) : Prop :=
  ∃ id url text, w.Spells [("id", some id), ("url", some url)] ∧ id.IsNatural hook.id ∧
    url.IsText text ∧ hook.url = some text

section

open Json.Fields

theorem Webhook.configured_eq_some_iff (w : Json.Written) (hook : Webhook) :
    configured w = some hook ↔ hook.IsConfigured w := by
  unfold configured
  rw [Json.record_eq_some_iff ((takes_required _ _).bind fun _ =>
    (takes_required _ _).bind fun _ => takes_pure _)]
  simp only [Json.record_eq_some_iff (takes_optional _ _), Json.Decoder.natural_eq_some_iff,
    Json.Decoder.missing?_text_eq_some_iff]
  constructor
  · rintro ⟨_, hw, _, _, _, rfl, ⟨id, rfl, hid⟩, _, _, _, rfl,
      ⟨config, rfl, _, hconfig, url, rfl, hurl⟩, rfl, rfl⟩
    exact ⟨id, config, url, hw, hconfig, hid, hurl⟩
  · rintro ⟨id, config, url, hw, hconfig, hid, hurl⟩
    exact ⟨_, hw, _, _, _, rfl, ⟨id, rfl, hid⟩, _, _, _, rfl,
      ⟨config, rfl, _, hconfig, url, rfl, hurl⟩, rfl, rfl⟩

theorem GitLab.hook_eq_some_iff (w : Json.Written) (found : Webhook) :
    hook w = some found ↔ found.IsPlain w := by
  unfold hook
  rw [Json.record_eq_some_iff ((takes_required _ _).bind fun _ =>
    (takes_required _ _).bind fun _ => takes_pure _)]
  simp only [Json.Decoder.natural_eq_some_iff, Json.Decoder.text_eq_some_iff]
  constructor
  · rintro ⟨_, hw, _, _, _, rfl, ⟨id, rfl, hid⟩, _, _, text, rfl, ⟨url, rfl, hurl⟩, rfl, rfl⟩
    exact ⟨id, url, text, hw, hid, hurl, rfl⟩
  · obtain ⟨number, _⟩ := found
    rintro ⟨id, url, text, hw, hid, hurl, rfl⟩
    exact ⟨_, hw, _, _, _, rfl, ⟨id, rfl, hid⟩, _, _, text, rfl, ⟨url, rfl, hurl⟩, rfl, rfl⟩

end

/-! ## The forges -/

def GitHub.webhookList (g : GitHub) (repo : String) : WebhookList where
  context := Context.cleanupWebhooks (g.repo repo).fullPath
  url := g.api.repoUrl (g.repo repo) ["hooks"]
  style := pageStyle
  items := .list Webhook.configured
  hookUrl := fun id => g.api.repoUrl (g.repo repo) ["hooks", toString id]

def GitLab.webhookList (g : GitLab) (repo : String) : WebhookList where
  context := Context.cleanupWebhooks (g.project repo)
  url := g.api.projectUrl (g.project repo) ["hooks"]
  style := pageStyle
  items := .list hook
  hookUrl := fun id => g.api.projectUrl (g.project repo) ["hooks", toString id]

def Forgejo.webhookList (g : Forgejo) (repo : String) : WebhookList where
  context := Context.cleanupWebhooks (g.repo repo).fullPath
  url := g.api.repoUrl (g.repo repo) ["hooks"]
  style := pageStyle
  items := .list Webhook.configured
  hookUrl := fun id => g.api.repoUrl (g.repo repo) ["hooks", toString id]

/-- A cleanup removes the first webhook that matches and no other, on every forge. The webhooks are
those that the pages spell. -/
theorem cleanupWebhooks_first (x : Exchange) (repo host : String) :
    (∀ g : GitHub,
      (g.webhookList repo).CleansUp host x (g.forge.cleanupWebhooks repo host x) ∧
      (g.webhookList repo).Reads Webhook.IsConfigured) ∧
    (∀ g : GitLab,
      (g.webhookList repo).CleansUp host x (g.forge.cleanupWebhooks repo host x) ∧
      (g.webhookList repo).Reads Webhook.IsPlain) ∧
    ∀ g : Forgejo,
      (g.webhookList repo).CleansUp host x (g.forge.cleanupWebhooks repo host x) ∧
      (g.webhookList repo).Reads Webhook.IsConfigured := by
  have hconfigured : ∀ w hooks, Json.Decoder.list Webhook.configured w = some hooks ↔
      w.IsList Webhook.IsConfigured hooks := fun _ _ =>
    Json.Decoder.list_eq_some_iff Webhook.configured_eq_some_iff
  refine ⟨fun g => ⟨?_, hconfigured⟩, fun g => ⟨?_, fun _ _ => ?_⟩, fun g => ⟨?_, hconfigured⟩⟩
  · refine WebhookList.cleansUp_cleanup (l := g.webhookList repo) fun id => ?_
    exact (Client.isHttp_repoUrl _ _ _).trans (Client.isHttp_repoUrl _ _ _).symm
  · refine WebhookList.cleansUp_cleanup (l := g.webhookList repo) fun id => ?_
    exact (Client.isHttp_projectUrl _ _ _).trans (Client.isHttp_projectUrl _ _ _).symm
  · exact Json.Decoder.list_eq_some_iff GitLab.hook_eq_some_iff
  · refine WebhookList.cleansUp_cleanup (l := g.webhookList repo) fun id => ?_
    exact (Client.isHttp_repoUrl _ _ _).trans (Client.isHttp_repoUrl _ _ _).symm

/-- A webhook without a URL and one of another host. -/
def otherHooks : String :=
  "[\x7b\"id\":1,\"config\":\x7b\x7d\x7d,\x7b\"id\":2,\"config\":\x7b\"url\":\"a.test\"\x7d\x7d]"

/-- Two webhooks of one host, as GitLab writes them. -/
def twoHooks : String :=
  "[\x7b\"url\":\"b.test/x\",\"id\":3\x7d,\x7b\"url\":\"b.test/y\",\"id\":4\x7d]"

/-- Two pages of webhooks, and a removal that succeeds. -/
def hooksInPages (first second : String) : List Reply :=
  [.prompt [("X-Next-Page", "2")] first, .prompt [] second, ⟨0, some ⟨204, [], some []⟩⟩]

/-- A webhook as GitHub and Forgejo write it. -/
def configuredHook (id url : String) : String :=
  "\x7b\"id\":" ++ id ++ ",\"config\":\x7b\"url\":\"" ++ url ++ "\"\x7d\x7d"

def configuredHooks : List Reply :=
  hooksInPages otherHooks
    ("[" ++ configuredHook "3" "b.test/x" ++ "," ++ configuredHook "4" "b.test/y" ++ "]")

def plainHooks : List Reply :=
  hooksInPages "[\x7b\"id\":1,\"url\":\"a.test\"\x7d]" twoHooks

/-- There the first of the two goes, and no other. -/
theorem cleanupWebhooks_first_ofTwo :
    let onGitHub := publicGitHub.forge.cleanupWebhooks "o/r" "b.test" ⟨configuredHooks, #[]⟩
    let onGitLab := publicGitLab.forge.cleanupWebhooks "o/r" "b.test" ⟨plainHooks, #[]⟩
    let onForgejo := publicForgejo.forge.cleanupWebhooks "o/r" "b.test" ⟨configuredHooks, #[]⟩
    (publicGitHub.webhookList "o/r").CleansUp "b.test" ⟨configuredHooks, #[]⟩ onGitHub ∧
    (∃ w, Json.Written.parse? otherHooks = some w ∧
      w.IsList Webhook.IsConfigured [⟨1, none⟩, ⟨2, some "a.test"⟩]) ∧
    onGitHub.state.sent.toList.map Request.shown = [
      (.get, "https://api.github.com/repos/o/r/hooks?per_page=100&page=1", none),
      (.get, "https://api.github.com/repos/o/r/hooks?per_page=100&page=2", none),
      (.delete, "https://api.github.com/repos/o/r/hooks/3", none)] ∧
    (publicGitLab.webhookList "o/r").CleansUp "b.test" ⟨plainHooks, #[]⟩ onGitLab ∧
    (∃ w, Json.Written.parse? twoHooks = some w ∧ w.IsList Webhook.IsPlain
      [⟨3, some "b.test/x"⟩, ⟨4, some "b.test/y"⟩]) ∧
    onGitLab.state.sent.toList.map Request.shown = [
      (.get, "https://gitlab.com/api/v4/projects/o%2Fr/hooks?per_page=100&page=1", none),
      (.get, "https://gitlab.com/api/v4/projects/o%2Fr/hooks?per_page=100&page=2", none),
      (.delete, "https://gitlab.com/api/v4/projects/o%2Fr/hooks/3", none)] ∧
    (publicForgejo.webhookList "o/r").CleansUp "b.test" ⟨configuredHooks, #[]⟩ onForgejo ∧
    onForgejo.state.sent.toList.map Request.shown = [
      (.get, "https://codeberg.org/api/v1/repos/o/r/hooks?limit=50&page=1", none),
      (.get, "https://codeberg.org/api/v1/repos/o/r/hooks?limit=50&page=2", none),
      (.delete, "https://codeberg.org/api/v1/repos/o/r/hooks/3", none)] := by
  intro onGitHub onGitLab onForgejo
  obtain ⟨hGitHub, -, hForgejo⟩ :=
    cleanupWebhooks_first ⟨configuredHooks, #[]⟩ "o/r" "b.test"
  obtain ⟨-, hGitLab, -⟩ := cleanupWebhooks_first ⟨plainHooks, #[]⟩ "o/r" "b.test"
  refine ⟨(hGitHub _).1, ⟨_, rfl, ?_⟩, by decide +kernel, (hGitLab _).1, ⟨_, rfl, ?_⟩,
    by decide +kernel, (hForgejo _).1, by decide +kernel⟩
  · exact ((hGitHub publicGitHub).2 _ _).mp rfl
  · exact ((hGitLab publicGitLab).2 _ _).mp rfl

end ForgeChores
