import ForgeChores.Proofs.Text.Number
import ForgeChores.Registry
import ForgeChores.Settings.Overlay

/-!
# ForgeChores.Proofs.Settings.Precedence

What the registry holds of a provider, key by key: what the environment says, else what the file
says, else what is built in.

The tables of keys, variables and built-in values stand here once more, apart from the code
(`Key.variableName`, `Key.builtIn`), so that a variable that overrides the wrong key or a default
that is lost does not go unnoticed.

* `precedence` gives all keys of all providers (`Resolved`); says that nothing that is changed of
  one provider is seen in another; and that overlaying twice is overlaying once.
-/

namespace ForgeChores
namespace Settings

/-! ## Keys -/

/-- The keys of a provider that hold a text. -/
inductive Key where
  | apiBase
  | webBase
  | org
  | sourceRepo
  | tokenEnv
  | secretName

namespace Key

/-- What a section says. -/
def inSection (s : ProviderSettings) : Key → Option String
  | .apiBase => s.apiBase
  | .webBase => s.webBase
  | .org => s.org
  | .sourceRepo => s.sourceRepo
  | .tokenEnv => s.tokenEnv
  | .secretName => s.secretName

/-- What the registry holds. Only the secret may be missing. -/
def inConfig (c : ProviderConfig) : Key → Option String
  | .apiBase => some c.apiBase
  | .webBase => some c.webBase
  | .org => some c.org
  | .sourceRepo => some c.sourceRepo
  | .tokenEnv => some c.tokenEnv
  | .secretName => c.secretName

/-- The variable that a key can be set by. -/
def variableName : Provider → Key → Option String
  | .gitHub, .org => some "GITHUB_E2E_ORGANIZATION"
  | .gitLab, .org => some "GITLAB_QE_ORG"
  | .gitLab, .apiBase => some "GITLAB_API_URL"
  | .forgejo, .org => some "FORGEJO_ORG"
  | .forgejo, .apiBase => some "FORGEJO_API_URL"
  | _, _ => none

/-- What holds where nothing is said. -/
def builtIn : Provider → Key → Option String
  | .gitHub, .apiBase => some "https://api.github.com"
  | .gitHub, .webBase => some "https://github.com"
  | .gitHub, .org => some "redhat-appstudio-qe"
  | .gitHub, .tokenEnv => some "GITHUB_TOKEN"
  | .gitLab, .apiBase => some "https://gitlab.com/api/v4"
  | .gitLab, .webBase => some "https://gitlab.com"
  | .gitLab, .org => some "konflux-qe"
  | .gitLab, .tokenEnv => some "GITLAB_BOT_TOKEN"
  | .gitLab, .secretName => some "pipelines-as-code-secret"
  | .forgejo, .apiBase => some "https://codeberg.org/api/v1"
  | .forgejo, .webBase => some "https://codeberg.org"
  | .forgejo, .org => some "konflux-qe"
  | .forgejo, .tokenEnv => some "FORGEJO_BOT_TOKEN"
  | _, .sourceRepo => some "devfile-sample-hello-world"
  | _, .secretName => none

end Key

/-- How many seconds a fork may take to become usable where nothing is said. -/
def builtInForkReady : Provider → Nat
  | .gitHub => 600
  | .gitLab => 1200
  | .forgejo => 600

/-- The variables that a provider's settings are taken from. -/
def variablesOf : Provider → List String
  | .gitHub => ["GITHUB_E2E_ORGANIZATION"]
  | .gitLab => ["GITLAB_QE_ORG", "GITLAB_API_URL", "GITLAB_FORK_IMPORT_TIMEOUT_MINUTES"]
  | .forgejo => ["FORGEJO_ORG", "FORGEJO_API_URL"]

/-! ## Minutes -/

/-- A text that says a number of minutes, other than none and not too many for 64 bits of seconds;
white space around it does not matter. -/
def Minutes (raw : String) (seconds : Nat) : Prop :=
  ∃ m, Text.Numeral (Text.trim raw) m ∧ 0 < m ∧ 60 * m ≤ 18446744073709551615 ∧
    seconds = 60 * m

theorem minutes?_eq_some_iff {raw : String} {seconds : Nat} :
    minutes? raw = some seconds ↔ Minutes raw seconds := by
  have hbound : Text.bound64 = 18446744073709551616 := rfl
  unfold minutes? Minutes
  simp only [Option.bind_eq_bind, Option.bind_eq_some_iff, Text.natural?_eq_some_iff]
  constructor
  · rintro ⟨m, ⟨hm, -⟩, h⟩
    split at h
    · rename_i hfits
      simp only [Bool.and_eq_true, decide_eq_true_eq, hbound] at hfits
      cases h
      exact ⟨m, hm, hfits.1, by omega, Nat.mul_comm m 60⟩
    · cases h
  · rintro ⟨m, hm, hpos, hfits, rfl⟩
    refine ⟨m, ⟨hm, by omega⟩, ?_⟩
    have hcond : (decide (0 < m) && decide (m * 60 < Text.bound64)) = true := by
      simp only [Bool.and_eq_true, decide_eq_true_eq, hbound]
      omega
    rw [if_pos hcond, Nat.mul_comm]

/-- What the environment says about how long a fork may take, which it says of GitLab only. -/
def ImportTime (env : Environment) (p : Provider) (seconds : Nat) : Prop :=
  p = .gitLab ∧ ∃ raw, env.value? "GITLAB_FORK_IMPORT_TIMEOUT_MINUTES" = some raw ∧
    Minutes raw seconds

theorem importTime_gitLab_iff {env : Environment} {seconds : Nat} :
    ImportTime env .gitLab seconds ↔ (env.value? importVariable).bind minutes? = some seconds := by
  simp only [Option.bind_eq_some_iff, minutes?_eq_some_iff]
  exact ⟨fun h => h.2, fun h => ⟨rfl, h⟩⟩

/-! ## One provider -/

/-- A provider as it comes of settings and environment. -/
structure Resolved (s : Settings) (env : Environment) (p : Provider) (c : ProviderConfig) :
    Prop where
  provider : c.provider = p
  text : ∀ k : Key, k.inConfig c =
    ((k.variableName p).bind env.value?).or ((k.inSection (s.provider p)).or (k.builtIn p))
  branch : c.timeouts.branch = .seconds 2 (s.timeouts.branch.getD 120)
  status : c.timeouts.status = .seconds 2 (s.timeouts.status.getD 600)
  fork : c.timeouts.fork = .seconds 10 (s.timeouts.fork.getD 300)
  delete : c.timeouts.delete = .seconds 10 300
  imported : ∀ n, ImportTime env p n → c.timeouts.forkReady = .seconds 10 n
  forkReady : (∀ n, ¬ ImportTime env p n) →
    c.timeouts.forkReady = .seconds 10 ((s.provider p).forkReady.getD (builtInForkReady p))

variable {s s' : Settings} {env env' : Environment} {p q : Provider}

theorem overlaid_eq_or (env : Environment) (name : String) (was : Option String) :
    overlaid env name was = (env.value? name).or was := by
  unfold overlaid
  cases env.value? name <;> rfl

theorem inSection_overlay (s : Settings) (env : Environment) (p : Provider) (k : Key) :
    k.inSection ((s.overlay env).provider p) =
      ((k.variableName p).bind env.value?).or (k.inSection (s.provider p)) := by
  cases p <;> cases k <;>
    simp [Key.inSection, Key.variableName, overlay, provider, overlaid_eq_or, gitHubOrgVariable,
      gitLabOrgVariable, gitLabApiVariable, forgejoOrgVariable, forgejoApiVariable]

theorem inConfig_ofSettings (s : Settings) (p : Provider) (k : Key) :
    k.inConfig (ProviderConfig.ofSettings s p) =
      (k.inSection (s.provider p)).or (k.builtIn p) := by
  cases p <;> cases k <;>
    simp [Key.inConfig, Key.inSection, Key.builtIn, ProviderConfig.ofSettings,
      Provider.defaultApiBase, GitHub.defaultApiBase, GitLab.defaultApiBase, Forgejo.defaultApiBase,
      ProviderConfig.defaults, ProviderConfig.defaultSourceRepo]

theorem forkReady_overlay (s : Settings) (env : Environment) (p : Provider) :
    (∀ n, ImportTime env p n → ((s.overlay env).provider p).forkReady = some n) ∧
      ((∀ n, ¬ ImportTime env p n) →
        ((s.overlay env).provider p).forkReady = (s.provider p).forkReady) := by
  cases p with
  | gitHub => exact ⟨fun _ h => (nomatch h.1), fun _ => rfl⟩
  | forgejo => exact ⟨fun _ h => (nomatch h.1), fun _ => rfl⟩
  | gitLab =>
    show (∀ n, _ → overlaidImport env s.gitLab.forkReady = some n) ∧
      (_ → overlaidImport env s.gitLab.forkReady = s.gitLab.forkReady)
    simp only [importTime_gitLab_iff]
    unfold overlaidImport
    cases (env.value? importVariable).bind minutes? with
    | none => exact ⟨fun _ h => (nomatch h), fun _ => rfl⟩
    | some n => exact ⟨fun _ h => h, fun h => absurd rfl (h n)⟩

theorem forkReady_ofSettings (s : Settings) (p : Provider) :
    (ProviderConfig.ofSettings s p).timeouts.forkReady =
      .seconds 10 ((s.provider p).forkReady.getD (builtInForkReady p)) := by
  show ProviderConfig.withTimeout .forkReady
    ((s.provider p).forkReady.or (ProviderConfig.defaults p).forkReady) = _
  cases p <;> cases (s.provider _).forkReady <;> rfl

theorem resolved_ofSettings (s : Settings) (env : Environment) (p : Provider) :
    Resolved s env p (ProviderConfig.ofSettings (s.overlay env) p) where
  provider := rfl
  text k := by rw [inConfig_ofSettings, inSection_overlay, Option.or_assoc]
  branch := by
    show ProviderConfig.withTimeout .branch s.timeouts.branch = _
    cases s.timeouts.branch <;> rfl
  status := by
    show ProviderConfig.withTimeout .status s.timeouts.status = _
    cases s.timeouts.status <;> rfl
  fork := by
    show ProviderConfig.withTimeout .fork s.timeouts.fork = _
    cases s.timeouts.fork <;> rfl
  delete := rfl
  imported n h := by
    rw [forkReady_ofSettings, (forkReady_overlay s env p).1 n h]
    rfl
  forkReady h := by rw [forkReady_ofSettings, (forkReady_overlay s env p).2 h]

/-! ## Several providers -/

theorem config_ofSettings (s : Settings) (p : Provider) :
    (Registry.ofSettings s).config p = .ok (ProviderConfig.ofSettings s p) := by
  cases p <;> rfl

theorem provider_unique {name : String} (hp : name ∈ variablesOf p) (hq : name ∈ variablesOf q) :
    p = q := by
  revert name
  cases p <;> cases q <;> decide

/-- Only a provider's own variables and its own section are looked at. -/
theorem provider_overlay_congr (hsection : s'.provider q = s.provider q)
    (hvars : ∀ name ∈ variablesOf q, env'.value? name = env.value? name) :
    (s'.overlay env').provider q = (s.overlay env).provider q := by
  cases q with
  | gitHub =>
    have hsection : s'.gitHub = s.gitHub := hsection
    have horg := hvars gitHubOrgVariable (by decide)
    simp only [provider, overlay, overlaid, hsection, horg]
  | gitLab =>
    have hsection : s'.gitLab = s.gitLab := hsection
    have horg := hvars gitLabOrgVariable (by decide)
    have hbase := hvars gitLabApiVariable (by decide)
    have himport := hvars importVariable (by decide)
    simp only [provider, overlay, overlaid, overlaidImport, hsection, horg, hbase, himport]
  | forgejo =>
    have hsection : s'.forgejo = s.forgejo := hsection
    have horg := hvars forgejoOrgVariable (by decide)
    have hbase := hvars forgejoApiVariable (by decide)
    simp only [provider, overlay, overlaid, hsection, horg, hbase]

theorem ofSettings_congr (hsection : s'.provider q = s.provider q)
    (htimeouts : s'.timeouts = s.timeouts) :
    ProviderConfig.ofSettings s' q = ProviderConfig.ofSettings s q := by
  unfold ProviderConfig.ofSettings
  rw [hsection, htimeouts]

theorem overlay_overlay (s : Settings) (env : Environment) :
    (s.overlay env).overlay env = s.overlay env := by
  have htext (name : String) (was : Option String) :
      overlaid env name (overlaid env name was) = overlaid env name was := by
    rw [overlaid_eq_or, overlaid_eq_or]
    cases env.value? name <;> rfl
  have himport (was : Option Nat) :
      overlaidImport env (overlaidImport env was) = overlaidImport env was := by
    unfold overlaidImport
    cases (env.value? importVariable).bind minutes? <;> rfl
  simp only [overlay, htext, himport]

/-- Every key of every provider is what the environment says, else what the file says, else what is
built in; the timeouts hold for all providers alike but that of a new fork for its own. What is
changed of one provider, in its section or in its variables, is not seen in another. Laying the
environment over twice does what once does. -/
theorem precedence (s : Settings) (env : Environment) :
    (∀ p, ∃ c, (Registry.ofSettings (s.overlay env)).config p = .ok c ∧ Resolved s env p c) ∧
    (∀ p q, p ≠ q → ∀ (s' : Settings) (env' : Environment), s'.timeouts = s.timeouts →
      (∀ r, r ≠ p → s'.provider r = s.provider r) →
      (∀ name, name ∉ variablesOf p → env'.get? name = env.get? name) →
      (Registry.ofSettings (s'.overlay env')).config q =
        (Registry.ofSettings (s.overlay env)).config q) ∧
    (s.overlay env).overlay env = s.overlay env := by
  refine ⟨fun p => ⟨_, config_ofSettings _ p, resolved_ofSettings s env p⟩, ?_,
    overlay_overlay s env⟩
  intro p q hpq s' env' htimeouts hsections hvars
  have hown : ∀ name ∈ variablesOf q, env'.value? name = env.value? name := by
    intro name hname
    rw [Environment.value?, Environment.value?, hvars name fun hp => hpq (provider_unique hp hname)]
  rw [config_ofSettings, config_ofSettings,
    ofSettings_congr (provider_overlay_congr (hsections q hpq.symm) hown) htimeouts]

def mixed : Settings :=
  { gitHub := { org := some "from-the-file" }
    gitLab := { apiBase := some "https://file.example.org", forkReady := some 40 }
    timeouts := { branch := some 7 } }

/-- An environment with an empty variable and with one that says no number of minutes. -/
def shell : Environment :=
  ⟨[("GITHUB_E2E_ORGANIZATION", ""), ("GITLAB_API_URL", "https://shell.example.org"),
    (importVariable, "30 minutes")]⟩

theorem precedence_mixed :
    (∃ c, (Registry.ofSettings (mixed.overlay shell)).config .gitLab = .ok c ∧
      c.apiBase = "https://shell.example.org" ∧ c.timeouts.forkReady = .seconds 10 40) ∧
    Provider.gitLab ≠ .gitHub ∧
    (∀ r, r ≠ .gitLab → ({ mixed with gitLab := {} } : Settings).provider r = mixed.provider r) ∧
    (∀ name, name ∉ variablesOf .gitLab →
      (shell.insert importVariable " +15 ").get? name = shell.get? name) ∧
    (Registry.ofSettings (({ mixed with gitLab := {} } : Settings).overlay
        (shell.insert importVariable " +15 "))).config .gitHub =
      (Registry.ofSettings (mixed.overlay shell)).config .gitHub := by
  have hne : Provider.gitLab ≠ .gitHub := by decide
  have hsections : ∀ r, r ≠ .gitLab →
      ({ mixed with gitLab := {} } : Settings).provider r = mixed.provider r := by
    intro r hr
    cases r with
    | gitLab => exact absurd rfl hr
    | _ => rfl
  have hvars : ∀ name, name ∉ variablesOf .gitLab →
      (shell.insert importVariable " +15 ").get? name = shell.get? name := by
    intro name hname
    have hother : importVariable ≠ name := by
      rintro rfl
      exact hname (by decide)
    rw [Table.get?_insert, if_neg hother]
  obtain ⟨hresolved, hunseen, -⟩ := precedence mixed shell
  obtain ⟨c, hc, h⟩ := hresolved .gitLab
  have himport : ∀ n, ¬ ImportTime shell .gitLab n := by
    intro n hn
    exact absurd (importTime_gitLab_iff.mp hn) (by simp [show
      (shell.value? importVariable).bind minutes? = none by decide])
  exact ⟨⟨c, hc, Option.some.inj (h.text .apiBase), h.forkReady himport⟩, hne, hsections, hvars,
    hunseen .gitLab .gitHub hne _ _ rfl hsections hvars⟩

end Settings
end ForgeChores
