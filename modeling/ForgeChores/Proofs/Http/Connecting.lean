import ForgeChores.Forge.Remote

/-!
# ForgeChores.Proofs.Http.Connecting

When a client can be made. The base URL and the token are judged apart: `Client.readBase` is what
is read of the base, whatever the token, and `Client.connect_eq` puts the two together.
`Provider.connect_eq` says the same of a forge of any provider.
-/

namespace ForgeChores

/-- A text that can be the value of a header: no control of ASCII but the tab. -/
def HeaderText (s : String) : Prop := ∀ c ∈ s.toList, c = '\t' ∨ 0x20 ≤ c.toNat ∧ c.toNat ≠ 0x7F

theorem isHeaderValue_iff {s : String} : isHeaderValue s = true ↔ HeaderText s := by
  simp [isHeaderValue, HeaderText]

instance (s : String) : Decidable (HeaderText s) := decidable_of_iff _ isHeaderValue_iff

theorem isHeaderValue_append (s t : String) :
    isHeaderValue (s ++ t) = (isHeaderValue s && isHeaderValue t) := by
  unfold isHeaderValue
  rw [String.toList_append, List.all_append]

theorem Auth.isHeaderValue_header {a : Auth} {name value : String}
    (h : a.header? = some (name, value)) : isHeaderValue value = isHeaderValue a.secret := by
  unfold header? at h
  split at h
  · cases h
  · cases a with
    | bearer t =>
      cases h
      rw [isHeaderValue_append, show isHeaderValue "Bearer " = true by decide, Bool.true_and]
      rfl
    | privateToken t =>
      cases h
      rfl
    | token t =>
      cases h
      rw [isHeaderValue_append, show isHeaderValue "token " = true by decide, Bool.true_and]
      rfl

theorem Auth.header?_eq_none_iff {a : Auth} : a.header? = none ↔ a.secret = "" := by
  simp [header?]

def ForgeError.badToken : ForgeError :=
  .invalidArgument "token contains characters not allowed in a header"

namespace Client

/-- The base URL of a client. -/
def readBase (apiBase : String) : Except ForgeError Url :=
  match Url.parse (Text.trimEnd '/' apiBase) with
  | .error e =>
    .error (.invalidArgument ("invalid API base URL '" ++ apiBase ++ "': " ++ e.message))
  | .ok base =>
    if base.hasSegments then .ok base
    else .error (.invalidArgument ("API base URL '" ++ apiBase ++ "' cannot carry a path"))

theorem hasSegments_of_readBase {apiBase : String} {base : Url}
    (h : readBase apiBase = .ok base) : base.hasSegments = true := by
  unfold readBase at h
  split at h
  · cases h
  · split at h
    · cases h
      assumption
    · cases h

theorem connect_eq (apiBase : String) (auth : Auth) (extraHeaders : List (String × String)) :
    connect apiBase auth extraHeaders = (readBase apiBase).bind fun base =>
      if HeaderText auth.secret then .ok ⟨base, auth, extraHeaders⟩ else .error .badToken := by
  unfold connect readBase
  cases Url.parse (Text.trimEnd '/' apiBase) with
  | error e => rfl
  | ok base =>
    by_cases hbase : base.hasSegments = true
    · simp only [hbase, Bool.not_true, Bool.false_eq_true, if_false, if_true]
      cases hheader : auth.header? with
      | none =>
        have hsecret : HeaderText auth.secret := by
          rw [Auth.header?_eq_none_iff.mp hheader]
          decide
        simp only [Except.bind, if_pos hsecret]
      | some header =>
        have hvalue : isHeaderValue header.2 = isHeaderValue auth.secret :=
          Auth.isHeaderValue_header hheader
        simp only [Except.bind, hvalue, isHeaderValue_iff]
        rfl
    · simp [hbase, Except.bind]

theorem connect_bind {α : Type} (apiBase : String) (auth : Auth)
    (extraHeaders : List (String × String)) (f : Client → Except ForgeError α) :
    (connect apiBase auth extraHeaders >>= f) = (readBase apiBase).bind fun base =>
      if HeaderText auth.secret then f ⟨base, auth, extraHeaders⟩ else .error .badToken := by
  rw [connect_eq]
  cases readBase apiBase with
  | error e => rfl
  | ok base => by_cases h : HeaderText auth.secret <;> simp [h, bind, Except.bind]

end Client

namespace Provider

/-- The forge of a provider at `base`. -/
def remote (p : Provider) (base : Url) (token org : String) (timeouts : Timeouts) : RemoteForge :=
  match p with
  | .gitHub =>
    let g : GitHub :=
      ⟨⟨base, .bearer token, [("x-github-api-version", GitHub.apiVersion)]⟩, org, timeouts⟩
    ⟨g.api, g.forge⟩
  | .gitLab =>
    let g : GitLab := ⟨⟨base, .privateToken token, []⟩, org, timeouts, GitLab.defaultRetryDelay⟩
    ⟨g.api, g.forge⟩
  | .forgejo =>
    let g : Forgejo := ⟨⟨base, .token token, []⟩, org, timeouts⟩
    ⟨g.api, g.forge⟩

theorem connect_eq (p : Provider) (token org apiBase : String) (timeouts : Timeouts) :
    p.connect token org apiBase timeouts = (Client.readBase apiBase).bind fun base =>
      if HeaderText token then .ok (p.remote base token org timeouts) else .error .badToken := by
  cases p with
  | gitHub =>
    unfold connect GitHub.connect
    rw [bind_assoc, Client.connect_bind]
    rfl
  | gitLab =>
    unfold connect GitLab.connect
    rw [bind_assoc, Client.connect_bind]
    rfl
  | forgejo =>
    unfold connect Forgejo.connect
    rw [bind_assoc, Client.connect_bind]
    rfl

end Provider
end ForgeChores
