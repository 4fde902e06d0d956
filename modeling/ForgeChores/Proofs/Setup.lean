import ForgeChores.Proofs.Forge.Calls
import ForgeChores.Setup

/-!
# ForgeChores.Proofs.Setup

What has to come before a fork.

A run is watched by noting what either party is asked for: the forge notes each of its operations,
the store of build secrets each token that is put into it. Noting changes nothing else
(`Timed.forget`), so what is said of the notes is said of the run itself.

* `provideSecret_providing`: the five ways to provide a secret, one of them that there is none.
* `withForge_course`: a run stops there or goes on to the fork.
* `Course.inOrder`: either way, what has to come first did.
* `prerequisites_first`: so it is from the registry on, however clients are built.
-/

namespace ForgeChores

/-- A run without what was noted beside the states. -/
def Timed.forget {σ τ κ μ ρ : Type} (run : Timed ((σ × κ) × (τ × μ)) ρ) : Timed (σ × τ) ρ :=
  ⟨run.result, run.elapsed, (run.state.1.1, run.state.2.1)⟩

namespace Setup

/-- A token that is put into the store, and under which name. -/
structure Provision where
  provider : Provider
  secret : String
  token : String
deriving DecidableEq

variable {σ τ : Type}

/-- Notes every token that is put into the store. -/
def Provisioner.noting (provision : Provisioner τ) : Provisioner (τ × List Provision) :=
  fun provider secret token =>
    (provision provider secret token).noting ⟨provider, secret, token⟩

/-- Makes ready with the forge of a registered provider, however a client is built. -/
def runWith (connect : ProviderConfig → String → Except ForgeError (Forge σ)) (r : Registry)
    (p : Provider) (env : Environment) (secrets : Option (Provisioner τ)) (suffix : String) :
    Task (σ × τ) RegistryError Ready :=
  match r.config p with
  | .error e => .fail e
  | .ok c =>
    match connect c (env.getOr c.tokenEnv "") with
    | .error e => .fail (.forge e)
    | .ok f => withForge c f env secrets suffix

/-- A client as its configuration has it. -/
def remoteForge (c : ProviderConfig) (token : String) : Except ForgeError (Forge Exchange) :=
  (c.connect token).map RemoteForge.forge

theorem connect_of_config {r : Registry} {p : Provider} {c : ProviderConfig} (env : Environment)
    (hc : r.config p = .ok c) :
    connect r p env = match c.connect (env.getOr c.tokenEnv "") with
      | .ok remote => .ok (c, remote)
      | .error e => .error (.forge e) := by
  unfold connect
  rw [hc]
  rfl

theorem run_eq_runWith (r : Registry) (p : Provider) (env : Environment)
    (secrets : Option (Provisioner τ)) (suffix : String) :
    run r p env secrets suffix = runWith remoteForge r p env secrets suffix := by
  unfold run runWith remoteForge
  cases hc : r.config p with
  | error e =>
    unfold connect
    rw [hc]
    rfl
  | ok c =>
    rw [connect_of_config env hc]
    dsimp only
    cases c.connect (env.getOr c.tokenEnv "") with
    | error e => rfl
    | ok remote => exact Task.ofExcept_ok_bind _ _

/-! ## A forge at hand -/

variable {c : ProviderConfig} {f : Forge σ} {env : Environment} {secrets : Option (Provisioner τ)}
  {suffix : String} {s : σ} {t t' : τ} {d : Nat}

def fork (c : ProviderConfig) (f : Forge σ) (suffix : String) : Task σ ForgeError Unit :=
  f.forkRepository c.sourceRepoPath (c.targetRepoName suffix)

def forkCall (c : ProviderConfig) (suffix : String) : Forge.Call :=
  .forkRepository c.sourceRepoPath (c.targetRepoName suffix)

/-- What is ready once there is a fork. -/
def readyWith (c : ProviderConfig) (f : Forge σ) (suffix : String) : Ready :=
  ⟨f.provider, c.targetRepoUrl (c.targetRepoName suffix), c.targetRepoName suffix⟩

/-- What comes of the fork. -/
def forked (c : ProviderConfig) (f : Forge σ) (suffix : String) (s : σ) :
    Except RegistryError Ready :=
  ((fork c f suffix s).result.mapError .forge).map fun _ => readyWith c f suffix

theorem withForge_of_error {e : RegistryError}
    (h : provideSecret c env secrets t = ⟨.error e, d, t'⟩) :
    withForge c f env secrets suffix (s, t) = ⟨.error e, d, (s, t')⟩ := by
  refine Task.bind_of_error ?_
  simp only [Task.onSecond, h]

theorem withForge_of_ok (h : provideSecret c env secrets t = ⟨.ok (), d, t'⟩) :
    withForge c f env secrets suffix (s, t) =
      ⟨forked c f suffix s, d + (fork c f suffix s).elapsed,
        ((fork c f suffix s).state, t')⟩ := by
  have hprovided : Task.onSecond (σ := σ) (provideSecret c env secrets) (s, t) =
      ⟨.ok (), d, (s, t')⟩ := by
    simp only [Task.onSecond, h]
  unfold withForge
  rw [Task.bind_of_ok hprovided, Task.bind_pure]
  rfl

/-- The token that is put into the store. -/
def provision (c : ProviderConfig) (env : Environment) (secret : String) : Provision :=
  ⟨c.provider, secret, env.getOr c.tokenEnv ""⟩

def Provision.run (q : Provision) (provisioner : Provisioner τ) : Task τ String Unit :=
  provisioner q.provider q.secret q.token

/-- The store took what was put into it. -/
def Took (secrets : Option (Provisioner τ)) (t : τ) (q : Provision) : Prop :=
  ∃ provisioner, secrets = some provisioner ∧ (q.run provisioner t).result = .ok ()

/-- The ways to provide a secret, each with the tokens that are put into the store. -/
inductive Providing (c : ProviderConfig) (env : Environment) (secrets : Option (Provisioner τ))
    (t : τ) : List Provision → Timed τ (Except RegistryError Unit) → Prop where
  | needless (hnone : c.secretName = none) : Providing c env secrets t [] ⟨.ok (), 0, t⟩
  | noToken {secret : String} (hsecret : c.secretName = some secret)
      (htoken : env.getOr c.tokenEnv "" = "") :
      Providing c env secrets t [] ⟨.error (.missingCredential c.provider c.tokenEnv), 0, t⟩
  | noStore {secret : String} (hsecret : c.secretName = some secret)
      (htoken : env.getOr c.tokenEnv "" ≠ "") (hstore : secrets = none) :
      Providing c env secrets t [] ⟨.error (.secretSetup c.provider secret
        "no build secret provisioner was supplied"), 0, t⟩
  | refused {secret text : String} {provisioner : Provisioner τ} {d : Nat} {t' : τ}
      (hsecret : c.secretName = some secret) (htoken : env.getOr c.tokenEnv "" ≠ "")
      (hstore : secrets = some provisioner)
      (hrun : (provision c env secret).run provisioner t = ⟨.error text, d, t'⟩) :
      Providing c env secrets t [provision c env secret]
        ⟨.error (.secretSetup c.provider secret text), d, t'⟩
  | taken {secret : String} {provisioner : Provisioner τ} {d : Nat} {t' : τ}
      (hsecret : c.secretName = some secret) (htoken : env.getOr c.tokenEnv "" ≠ "")
      (hstore : secrets = some provisioner)
      (hrun : (provision c env secret).run provisioner t = ⟨.ok (), d, t'⟩) :
      Providing c env secrets t [provision c env secret] ⟨.ok (), d, t'⟩

theorem provideSecret_providing (c : ProviderConfig) (env : Environment)
    (secrets : Option (Provisioner τ)) (t : τ) :
    ∃ provisions, Providing c env secrets t provisions (provideSecret c env secrets t) ∧
      ∀ notes, provideSecret c env (secrets.map Provisioner.noting) (t, notes) =
        ⟨(provideSecret c env secrets t).result, (provideSecret c env secrets t).elapsed,
          ((provideSecret c env secrets t).state, notes ++ provisions)⟩ := by
  unfold provideSecret
  cases hsecret : c.secretName with
  | none =>
    refine ⟨[], .needless hsecret, fun notes => ?_⟩
    rw [List.append_nil]
    rfl
  | some secret =>
    by_cases htoken : env.getOr c.tokenEnv "" = ""
    · simp only [if_pos htoken]
      refine ⟨[], .noToken hsecret htoken, fun notes => ?_⟩
      rw [List.append_nil]
      rfl
    · simp only [if_neg htoken]
      cases secrets with
      | none =>
        refine ⟨[], .noStore hsecret htoken rfl, fun notes => ?_⟩
        rw [List.append_nil]
        rfl
      | some provisioner =>
        refine ⟨[provision c env secret], ?_, fun notes => rfl⟩
        rcases hrun : (provision c env secret).run provisioner t with ⟨text | _, d, t'⟩
        · have hfails := Providing.refused hsecret htoken rfl hrun
          rw [Provision.run, provision] at hrun
          simp only [Task.mapError, hrun]
          exact hfails
        · have hdone := Providing.taken hsecret htoken rfl hrun
          rw [Provision.run, provision] at hrun
          simp only [Task.mapError, hrun]
          exact hdone

namespace Providing

variable {provisions : List Provision} {r : Timed τ (Except RegistryError Unit)}

theorem length_le (h : Providing c env secrets t provisions r) : provisions.length ≤ 1 := by
  cases h <;> simp

theorem ne_nil_iff (h : Providing c env secrets t provisions r) :
    provisions ≠ [] ↔ c.secretName ≠ none ∧ env.getOr c.tokenEnv "" ≠ "" ∧ secrets ≠ none := by
  cases h with
  | needless hnone => simp [hnone]
  | noToken _ htoken => simp [htoken]
  | noStore _ _ hstore => simp [hstore]
  | refused hsecret htoken hstore | taken hsecret htoken hstore => simp [hsecret, htoken, hstore]

theorem of_mem (h : Providing c env secrets t provisions r) {q : Provision}
    (hq : q ∈ provisions) :
    c.secretName = some q.secret ∧ q = provision c env q.secret ∧ q.token ≠ "" := by
  cases h with
  | needless | noToken | noStore => cases hq
  | refused hsecret htoken | taken hsecret htoken =>
    obtain rfl := List.mem_singleton.mp hq
    exact ⟨hsecret, rfl, htoken⟩

/-- A secret is provided when there is none to provide, and when the store takes the token. -/
theorem ok_iff (h : Providing c env secrets t provisions r) :
    r.result = .ok () ↔ c.secretName = none ∨ ∃ q ∈ provisions, Took secrets t q := by
  cases h with
  | needless hnone => exact iff_of_true rfl (.inl hnone)
  | noToken hsecret | noStore hsecret =>
    rw [hsecret]
    simp
  | @refused secret text provisioner d t' hsecret _ hstore hrun =>
    rw [hsecret]
    suffices hnot : ¬ Took secrets t (provision c env secret) by simpa using hnot
    rintro ⟨provisioner', hstore', hok⟩
    cases hstore.symm.trans hstore'
    rw [hrun] at hok
    cases hok
  | @taken secret provisioner d t' _ _ hstore hrun =>
    have htook : Took secrets t (provision c env secret) := ⟨provisioner, hstore, by rw [hrun]⟩
    exact iff_of_true rfl (.inr ⟨_, List.mem_singleton_self _, htook⟩)

theorem missingCredential_iff (h : Providing c env secrets t provisions r) :
    r.result = .error (.missingCredential c.provider c.tokenEnv) ↔
      c.secretName ≠ none ∧ env.getOr c.tokenEnv "" = "" := by
  cases h with
  | needless hnone => simp [hnone]
  | noToken hsecret htoken => simp [hsecret, htoken]
  | noStore _ htoken | refused _ htoken | taken _ htoken => simp [htoken]

end Providing

/-- A run with what is noted beside the states. -/
abbrev Watched (σ τ : Type) :=
  Timed ((σ × List Forge.Call) × (τ × List Provision)) (Except RegistryError Ready)

namespace Watched

def asked (run : Watched σ τ) : List Forge.Call := run.state.1.2

def provisioned (run : Watched σ τ) : List Provision := run.state.2.2

end Watched

/-- The ways that a run can go. -/
inductive Course (c : ProviderConfig) (f : Forge σ) (env : Environment)
    (secrets : Option (Provisioner τ)) (suffix : String) (s : σ) (t : τ) : Watched σ τ → Prop where
  | stopped {provisions : List Provision} {e : RegistryError} {d : Nat} {t' : τ}
      (hproviding : Providing c env secrets t provisions ⟨.error e, d, t'⟩) :
      Course c f env secrets suffix s t ⟨.error e, d, ((s, []), (t', provisions))⟩
  | asked {provisions : List Provision} {d : Nat} {t' : τ}
      (hproviding : Providing c env secrets t provisions ⟨.ok (), d, t'⟩) :
      Course c f env secrets suffix s t
        ⟨forked c f suffix s, d + (fork c f suffix s).elapsed,
          (((fork c f suffix s).state, [forkCall c suffix]), (t', provisions))⟩

theorem withForge_course (c : ProviderConfig) (f : Forge σ) (env : Environment)
    (secrets : Option (Provisioner τ)) (suffix : String) (s : σ) (t : τ) :
    let run := withForge c f.noting env (secrets.map Provisioner.noting) suffix ((s, []), (t, []))
    Course c f env secrets suffix s t run ∧ run.forget = withForge c f env secrets suffix (s, t) := by
  intro run
  obtain ⟨provisions, hproviding, hnoting⟩ := provideSecret_providing c env secrets t
  have hnoted := hnoting []
  rw [List.nil_append] at hnoted
  -- the secret comes to the same whether it is noted or not, and the fork goes by that
  rcases hplain : provideSecret c env secrets t with ⟨e | _, d, t'⟩
  · rw [hplain] at hproviding hnoted
    have hrun : run = ⟨.error e, d, ((s, []), (t', provisions))⟩ := withForge_of_error hnoted
    rw [hrun, withForge_of_error hplain]
    exact ⟨.stopped hproviding, rfl⟩
  · rw [hplain] at hproviding hnoted
    have hrun : run = _ := withForge_of_ok hnoted
    rw [hrun, withForge_of_ok hplain]
    exact ⟨.asked hproviding, rfl⟩

/-- The secret comes first, as far as there is one, and the fork comes last. -/
structure InOrder (c : ProviderConfig) (f : Forge σ) (env : Environment)
    (secrets : Option (Provisioner τ)) (suffix : String) (s : σ) (t : τ) (run : Watched σ τ) :
    Prop where
  provisioned_iff : run.provisioned ≠ [] ↔
    c.secretName ≠ none ∧ env.getOr c.tokenEnv "" ≠ "" ∧ secrets ≠ none
  provisioned_once : run.provisioned.length ≤ 1
  provisioned_only : ∀ q ∈ run.provisioned,
    c.secretName = some q.secret ∧ q = provision c env q.secret ∧ q.token ≠ ""
  asked_once : run.asked.length ≤ 1
  asked_only : ∀ call ∈ run.asked, call = forkCall c suffix
  asked_iff : run.asked ≠ [] ↔
    c.secretName = none ∨ ∃ q ∈ run.provisioned, Took secrets t q
  /-- A forge that is asked for nothing is left as it was. -/
  untouched : run.asked = [] → run.state.1.1 = s
  missingCredential_iff : run.result = .error (.missingCredential c.provider c.tokenEnv) ↔
    c.secretName ≠ none ∧ env.getOr c.tokenEnv "" = ""
  missingCredential_idle : ∀ q variableName,
    run.result = .error (.missingCredential q variableName) → run.asked = []
  secretSetup_idle : ∀ q secret text,
    run.result = .error (.secretSetup q secret text) → run.asked = []
  ready_iff : ∀ ready, run.result = .ok ready ↔
    run.asked = [forkCall c suffix] ∧ (fork c f suffix s).result = .ok () ∧
      ready = readyWith c f suffix

theorem forked_ready_iff {ready : Ready} :
    forked c f suffix s = .ok ready ↔
      (fork c f suffix s).result = .ok () ∧ ready = readyWith c f suffix := by
  unfold forked
  cases (fork c f suffix s).result with
  | error e => exact iff_of_false nofun nofun
  | ok _ =>
    show Except.ok (readyWith c f suffix) = Except.ok ready ↔ _
    rw [Except.ok.injEq, eq_comm]
    exact (and_iff_right rfl).symm

/-- Once the fork is asked for, what can fail is the fork. -/
theorem forked_ne_error {e : RegistryError} (he : ∀ cause, .forge cause ≠ e) :
    forked c f suffix s ≠ .error e := by
  unfold forked
  cases (fork c f suffix s).result with
  | error cause =>
    intro h
    exact he cause (Except.error.inj h)
  | ok _ => exact nofun

theorem Course.inOrder {run : Watched σ τ} (h : Course c f env secrets suffix s t run) :
    InOrder c f env secrets suffix s t run := by
  cases h with
  | stopped hproviding =>
    exact {
      provisioned_iff := hproviding.ne_nil_iff
      provisioned_once := hproviding.length_le
      provisioned_only := fun _ => hproviding.of_mem
      asked_once := Nat.zero_le 1
      asked_only := nofun
      asked_iff := iff_of_false (fun hasked => hasked rfl) fun hdone =>
        nomatch hproviding.ok_iff.mpr hdone
      untouched := fun _ => rfl
      missingCredential_iff := by
        rw [← hproviding.missingCredential_iff]
        simp
      missingCredential_idle := fun _ _ _ => rfl
      secretSetup_idle := fun _ _ _ _ => rfl
      ready_iff := fun ready => iff_of_false nofun nofun }
  | asked hproviding =>
    exact {
      provisioned_iff := hproviding.ne_nil_iff
      provisioned_once := hproviding.length_le
      provisioned_only := fun _ => hproviding.of_mem
      asked_once := Nat.le_refl 1
      asked_only := fun _ => List.mem_singleton.mp
      asked_iff := iff_of_true nofun (hproviding.ok_iff.mp rfl)
      untouched := nofun
      missingCredential_iff := by
        refine iff_of_false (forked_ne_error nofun) ?_
        rw [← hproviding.missingCredential_iff]
        exact nofun
      missingCredential_idle := fun _ _ hmissing => absurd hmissing (forked_ne_error nofun)
      secretSetup_idle := fun _ _ _ hsetup => absurd hsetup (forked_ne_error nofun)
      ready_iff := fun ready => forked_ready_iff.trans (and_iff_right rfl).symm }

theorem provider_of_find? {r : Registry} {p : Provider} (h : r.find? p = some c) :
    c.provider = p := by
  simpa using List.find?_some h

/-- What comes before the fork, whatever the registry, the environment, the store and the clients
are like. What ends a run before the store has its turn changes nothing. -/
theorem prerequisites_first
    (connect : ProviderConfig → String → Except ForgeError (Forge σ)) (r : Registry)
    (p : Provider) (env : Environment) (secrets : Option (Provisioner τ)) (suffix : String)
    (s : σ) (t : τ) :
    (run r p env secrets suffix = runWith remoteForge r p env secrets suffix) ∧
    let watched : Watched σ τ := runWith (fun c token => (connect c token).map Forge.noting) r p env
      (secrets.map Provisioner.noting) suffix ((s, []), (t, []))
    watched.forget = runWith connect r p env secrets suffix (s, t) ∧
    match r.find? p with
    | none => watched = ⟨.error (.notRegistered p), 0, ((s, []), (t, []))⟩
    | some c => c.provider = p ∧
      match connect c (env.getOr c.tokenEnv "") with
      | .error e => watched = ⟨.error (.forge e), 0, ((s, []), (t, []))⟩
      | .ok f => InOrder c f env secrets suffix s t watched := by
  refine ⟨run_eq_runWith r p env secrets suffix, ?_⟩
  unfold runWith Registry.config
  cases hfind : r.find? p with
  | none => exact ⟨rfl, rfl⟩
  | some c =>
    dsimp only
    cases connect c (env.getOr c.tokenEnv "") with
    | error e => exact ⟨rfl, provider_of_find? hfind, rfl⟩
    | ok f =>
      obtain ⟨hcourse, hforget⟩ := withForge_course c f env secrets suffix s t
      exact ⟨hforget, provider_of_find? hfind, hcourse.inOrder⟩

end Setup
end ForgeChores
