import ForgeChores.Proofs.Forge.Calls
import ForgeChores.Proofs.Http.Connecting

/-!
# ForgeChores.Proofs.Forge.TokenSecrecy

Nothing that a forge does or shows tells one token from another.

Two runs are compared. Of a run one sees what comes of its calls and when, the requests as they go
out, and the texts that describe the client and how it shows its token (`Seen`); the value of the
header that carries the token is masked.

* Operations do not look at the token: the forges at one base are the same forge
  (`GitHub.forge_congr` and its siblings).
* A message depends on the token in the masked value only (`Client.masked_message`).
* `tokens_undisclosed` puts this together for every forge.
-/

namespace ForgeChores

/-! ## Messages -/

/-- The headers that a token or other credentials travel in. -/
def credentialHeaders : List String := ["authorization", "private-token"]

/-- A header without the credentials in it. -/
def maskedHeader (header : String × String) : String × String :=
  if header.1 ∈ credentialHeaders then (header.1, "") else header

def Message.masked (m : Message) : Message := { m with headers := m.headers.map maskedHeader }

namespace Auth

def headerName : Auth → String
  | .bearer _ => "authorization"
  | .privateToken _ => "private-token"
  | .token _ => "authorization"

/-- Two tokens that are shown in the same way, both of them empty or neither. -/
structure Alike (a a' : Auth) : Prop where
  kindName : a.kindName = a'.kindName
  headerName : a.headerName = a'.headerName
  empty : a.secret = "" ↔ a'.secret = ""

variable {a a' : Auth}

theorem Alike.summary_eq (h : Alike a a') : a.summary = a'.summary := by
  have hempty : a.secret.isEmpty = a'.secret.isEmpty := by
    rw [Bool.eq_iff_iff, String.isEmpty_iff, String.isEmpty_iff]
    exact h.empty
  unfold summary
  rw [h.kindName, hempty]

theorem headerName_mem (a : Auth) : a.headerName ∈ credentialHeaders := by
  cases a <;> simp [headerName, credentialHeaders]

theorem header?_of_ne (h : a.secret ≠ "") : ∃ value, a.header? = some (a.headerName, value) := by
  cases a with
  | bearer t => exact ⟨"Bearer " ++ t, if_neg (by simpa using h)⟩
  | privateToken t => exact ⟨t, if_neg (by simpa using h)⟩
  | token t => exact ⟨"token " ++ t, if_neg (by simpa using h)⟩

end Auth

theorem Client.masked_message {a a' : Auth} (halike : Auth.Alike a a') (base : Url)
    (extraHeaders : List (String × String)) (q : Request) :
    (message ⟨base, a, extraHeaders⟩ q).masked = (message ⟨base, a', extraHeaders⟩ q).masked := by
  unfold message Message.masked
  by_cases hempty : a.secret = ""
  · have hheader := Auth.header?_eq_none_iff.mpr hempty
    have hheader' := Auth.header?_eq_none_iff.mpr (halike.empty.mp hempty)
    simp only [hheader, hheader']
  · obtain ⟨value, hheader⟩ := Auth.header?_of_ne hempty
    obtain ⟨value', hheader'⟩ := Auth.header?_of_ne fun h => hempty (halike.empty.mpr h)
    have hname := a.headerName_mem
    simp only [hheader, hheader', ← halike.headerName]
    cases basicHeader q.url with
    | none => simp [maskedHeader, hname]
    | some basic =>
      -- credentials in the URL take the place of the token's header if it has the same name
      by_cases hauthorization : a.headerName = "authorization"
      · rw [hauthorization]
        rfl
      · simp [maskedHeader, hname, hauthorization]

/-! ## Operations -/

theorem GitHub.forge_congr (base : Url) (a a' : Auth) (extraHeaders : List (String × String))
    (org : String) (timeouts : Timeouts) :
    forge ⟨⟨base, a, extraHeaders⟩, org, timeouts⟩ =
      forge ⟨⟨base, a', extraHeaders⟩, org, timeouts⟩ := rfl

theorem GitLab.forge_congr (base : Url) (a a' : Auth) (extraHeaders : List (String × String))
    (group : String) (timeouts : Timeouts) (retryDelay : Nat) :
    forge ⟨⟨base, a, extraHeaders⟩, group, timeouts, retryDelay⟩ =
      forge ⟨⟨base, a', extraHeaders⟩, group, timeouts, retryDelay⟩ := rfl

theorem Forgejo.forge_congr (base : Url) (a a' : Auth) (extraHeaders : List (String × String))
    (org : String) (timeouts : Timeouts) :
    forge ⟨⟨base, a, extraHeaders⟩, org, timeouts⟩ =
      forge ⟨⟨base, a', extraHeaders⟩, org, timeouts⟩ := rfl

/-! ## Runs -/

/-- What is seen of a run: what comes of each call and how long it takes, the requests as they go
out, and the texts that are shown of the client, of what it is made of and of its token. -/
structure Seen where
  results : List (Except ForgeError Forge.Answer × Nat)
  messages : List Message
  shown : List String

def RemoteForge.seen (r : RemoteForge) (summary : String) (calls : List Forge.Call) (x : Exchange) :
    Seen :=
  let run := r.forge.carryOut calls x
  ⟨run.1, run.2.sent.toList.map r.api.message, [summary, r.api.summary, r.api.auth.summary]⟩

/-- No run shows more of the token than whether there is one. Of two tokens that a header can
carry, either both are refused with the same error or both give a forge, and then all calls come to
the same, in the same time, whatever the server answers. If both are empty or neither is, the
messages and the texts are the same as well. A token that no header can carry is not repeated
in the error. -/
structure Undisclosed {γ : Type} (connect : (token : String) → Except ForgeError γ)
    (seen : γ → List Forge.Call → Exchange → Seen) : Prop where
  runs : ∀ t t', HeaderText t → HeaderText t' →
    (∃ e, connect t = .error e ∧ connect t' = .error e) ∨
    ∃ g g', connect t = .ok g ∧ connect t' = .ok g' ∧ ∀ calls x,
      (seen g calls x).results = (seen g' calls x).results ∧
      ((t = "" ↔ t' = "") →
        (seen g calls x).messages.map Message.masked =
            (seen g' calls x).messages.map Message.masked ∧
          (seen g calls x).shown = (seen g' calls x).shown)
  refused : ∀ t t', ¬ HeaderText t → ¬ HeaderText t' → ∃ e, connect t = .error e ∧
    connect t' = .error e

/-- It is enough that forges at one base with two tokens are the same forge, that the texts are
the same, and that the tokens are shown in the same way. -/
theorem undisclosed_of {γ : Type} {connect : String → Except ForgeError γ} {apiBase : String}
    {build : Url → String → γ} {remote : γ → RemoteForge} {summary : γ → String}
    {auth : String → Auth} {extraHeaders : List (String × String)}
    (hconnect : ∀ t, connect t = (Client.readBase apiBase).bind fun base =>
      if HeaderText t then .ok (build base t) else .error .badToken)
    (hapi : ∀ base t, (remote (build base t)).api = ⟨base, auth t, extraHeaders⟩)
    (hforge : ∀ base t t', (remote (build base t)).forge = (remote (build base t')).forge)
    (hsummary : ∀ base t t', summary (build base t) = summary (build base t'))
    (hauth : ∀ t t', (t = "" ↔ t' = "") → Auth.Alike (auth t) (auth t')) :
    Undisclosed connect fun g => (remote g).seen (summary g) := by
  cases hbase : Client.readBase apiBase with
  | error e =>
    have herror (t : String) : connect t = .error e := by
      rw [hconnect, hbase]
      rfl
    exact ⟨fun t t' _ _ => .inl ⟨e, herror t, herror t'⟩,
      fun t t' _ _ => ⟨e, herror t, herror t'⟩⟩
  | ok base =>
    have hok (t : String) :
        connect t = if HeaderText t then .ok (build base t) else .error .badToken := by
      rw [hconnect, hbase]
      rfl
    refine ⟨fun t t' ht ht' => .inr ⟨build base t, build base t', ?_, ?_, fun calls x => ?_⟩,
      fun t t' ht ht' => ⟨.badToken, ?_, ?_⟩⟩
    · rw [hok, if_pos ht]
    · rw [hok, if_pos ht']
    · simp only [RemoteForge.seen, hforge base t t', hsummary base t t', hapi, true_and]
      refine fun hempty => ⟨?_, ?_⟩
      · rw [List.map_map, List.map_map]
        exact List.map_congr_left fun q _ =>
          Client.masked_message (hauth t t' hempty) base extraHeaders q
      · rw [(hauth t t' hempty).summary_eq]
        rfl
    · rw [hok, if_neg ht]
    · rw [hok, if_neg ht']

/-- Of no forge, and of no provider's forge as the registry connects it, does a run tell one token
from another. -/
theorem tokens_undisclosed (org apiBase : String) (timeouts : Timeouts) (retryDelay : Nat) :
    Undisclosed (GitHub.connect · org apiBase timeouts)
      (fun g => RemoteForge.seen ⟨g.api, g.forge⟩ g.summary) ∧
    Undisclosed (GitLab.connect · org apiBase timeouts retryDelay)
      (fun g => RemoteForge.seen ⟨g.api, g.forge⟩ g.summary) ∧
    Undisclosed (Forgejo.connect · org apiBase timeouts)
      (fun g => RemoteForge.seen ⟨g.api, g.forge⟩ g.summary) ∧
    ∀ p : Provider, Undisclosed (p.connect · org apiBase timeouts) (fun r => r.seen "") := by
  refine ⟨?_, ?_, ?_, fun p => ?_⟩
  · refine undisclosed_of (fun t => Client.connect_bind _ (.bearer t) _ _) (fun _ _ => rfl)
      (fun _ _ _ => GitHub.forge_congr _ _ _ _ _ _) (fun _ _ _ => rfl) fun _ _ h => ⟨rfl, rfl, h⟩
  · refine undisclosed_of (fun t => Client.connect_bind _ (.privateToken t) _ _) (fun _ _ => rfl)
      (fun _ _ _ => GitLab.forge_congr _ _ _ _ _ _ _) (fun _ _ _ => rfl)
      fun _ _ h => ⟨rfl, rfl, h⟩
  · refine undisclosed_of (fun t => Client.connect_bind _ (.token t) _ _) (fun _ _ => rfl)
      (fun _ _ _ => Forgejo.forge_congr _ _ _ _ _ _) (fun _ _ _ => rfl)
      fun _ _ h => ⟨rfl, rfl, h⟩
  · cases p with
    | gitHub =>
      exact undisclosed_of (Provider.connect_eq .gitHub · org apiBase timeouts) (fun _ _ => rfl)
        (fun _ _ _ => GitHub.forge_congr _ _ _ _ _ _) (fun _ _ _ => rfl)
        fun _ _ h => ⟨rfl, rfl, h⟩
    | gitLab =>
      exact undisclosed_of (Provider.connect_eq .gitLab · org apiBase timeouts) (fun _ _ => rfl)
        (fun _ _ _ => GitLab.forge_congr _ _ _ _ _ _ _) (fun _ _ _ => rfl)
        fun _ _ h => ⟨rfl, rfl, h⟩
    | forgejo =>
      exact undisclosed_of (Provider.connect_eq .forgejo · org apiBase timeouts) (fun _ _ => rfl)
        (fun _ _ _ => Forgejo.forge_congr _ _ _ _ _ _) (fun _ _ _ => rfl)
        fun _ _ h => ⟨rfl, rfl, h⟩

theorem tokens_undisclosed_public :
    HeaderText "alpha" ∧ HeaderText "beta" ∧
      ∃ g g', GitHub.connect "alpha" "o" GitHub.defaultApiBase {} = .ok g ∧
        GitHub.connect "beta" "o" GitHub.defaultApiBase {} = .ok g' ∧
        ∀ calls x,
          (RemoteForge.seen ⟨g.api, g.forge⟩ g.summary calls x).results =
            (RemoteForge.seen ⟨g'.api, g'.forge⟩ g'.summary calls x).results ∧
          (RemoteForge.seen ⟨g.api, g.forge⟩ g.summary calls x).messages.map Message.masked =
            (RemoteForge.seen ⟨g'.api, g'.forge⟩ g'.summary calls x).messages.map
              Message.masked := by
  have halpha : HeaderText "alpha" := by decide
  have hbeta : HeaderText "beta" := by decide
  have hconnects : (GitHub.connect "alpha" "o" GitHub.defaultApiBase {}).isOk = true := by rfl
  refine ⟨halpha, hbeta, ?_⟩
  rcases (tokens_undisclosed "o" GitHub.defaultApiBase {} 0).1.runs _ _ halpha hbeta with
    ⟨e, he, -⟩ | ⟨g, g', hg, hg', hruns⟩
  · rw [he] at hconnects
    cases hconnects
  · refine ⟨g, g', hg, hg', fun calls x => ?_⟩
    obtain ⟨hresults, hmasked⟩ := hruns calls x
    exact ⟨hresults, (hmasked (by decide)).1⟩

end ForgeChores
