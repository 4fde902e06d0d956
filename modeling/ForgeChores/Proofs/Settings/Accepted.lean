import ForgeChores.Proofs.Activity
import ForgeChores.Settings.Valid

/-!
# ForgeChores.Proofs.Settings.Accepted

What settings that pass validation are like, key by key (`Settings.Accepted`), and that validation
passes exactly those (`validate_eq_ok_iff`).
-/

namespace ForgeChores

/-- A number of seconds that a wait may take: one to a week. -/
def Settings.AllowedTimeout (seconds : Nat) : Prop := 1 ≤ seconds ∧ seconds ≤ maxTimeout

/-- A section without a fault. -/
structure ProviderSettings.Accepted (s : ProviderSettings) : Prop where
  org : ∀ org, s.org = some org → Text.trim org ≠ ""
  apiBase : ∀ url, s.apiBase = some url → Settings.isHttpUrl url = true
  webBase : ∀ url, s.webBase = some url → Settings.isHttpUrl url = true
  forkReady : ∀ seconds, s.forkReady = some seconds → Settings.AllowedTimeout seconds
  tokenEnv : ∀ name, s.tokenEnv = some name → name ≠ ""

namespace Settings

/-- Settings without a fault. -/
structure Accepted (s : Settings) : Prop where
  provider : ∀ p, (s.provider p).Accepted
  branch : ∀ seconds, s.timeouts.branch = some seconds → AllowedTimeout seconds
  status : ∀ seconds, s.timeouts.status = some seconds → AllowedTimeout seconds
  fork : ∀ seconds, s.timeouts.fork = some seconds → AllowedTimeout seconds

variable {p : Provider}

theorem check_bind_eq_ok_iff {first second : Except Fault Unit} :
    (first >>= fun _ => second) = .ok () ↔ first = .ok () ∧ second = .ok () := by
  rw [except_bind_eq_ok]
  exact ⟨fun ⟨(), hfirst, hsecond⟩ => ⟨hfirst, hsecond⟩, fun h => ⟨(), h⟩⟩

theorem checkOrg_eq_ok_iff {org : Option String} :
    checkOrg p org = .ok () ↔ ∀ o, org = some o → Text.trim o ≠ "" := by
  cases org with
  | none => simp [checkOrg]
  | some o => simp [checkOrg]

theorem checkUrl_eq_ok_iff {key : String} {url : Option String} :
    checkUrl p key url = .ok () ↔ ∀ u, url = some u → isHttpUrl u = true := by
  cases url with
  | none => simp [checkUrl]
  | some u => simp [checkUrl]

theorem checkTimeout_eq_ok_iff {key : String} {seconds : Option Nat} :
    checkTimeout key seconds = .ok () ↔ ∀ n, seconds = some n → AllowedTimeout n := by
  cases seconds with
  | none => simp [checkTimeout]
  | some n =>
    simp only [checkTimeout, AllowedTimeout, Option.some.injEq, forall_eq']
    by_cases hzero : n = 0
    · simp [hzero]
    · by_cases hlong : maxTimeout < n
      · simp [hzero, hlong]
      · simp [hzero, hlong]
        omega

theorem checkTokenEnv_eq_ok_iff {name : Option String} :
    checkTokenEnv p name = .ok () ↔ ∀ n, name = some n → n ≠ "" := by
  cases name with
  | none => simp [checkTokenEnv]
  | some n => simp [checkTokenEnv]

theorem checkProvider_eq_ok_iff {s : ProviderSettings} :
    checkProvider p s = .ok () ↔ s.Accepted := by
  unfold checkProvider
  simp only [check_bind_eq_ok_iff, checkOrg_eq_ok_iff, checkUrl_eq_ok_iff, checkTimeout_eq_ok_iff,
    checkTokenEnv_eq_ok_iff]
  exact ⟨fun ⟨org, apiBase, webBase, forkReady, tokenEnv⟩ =>
      ⟨org, apiBase, webBase, forkReady, tokenEnv⟩,
    fun h => ⟨h.org, h.apiBase, h.webBase, h.forkReady, h.tokenEnv⟩⟩

theorem validate_eq_ok_iff {s : Settings} : s.validate = .ok () ↔ s.Accepted := by
  unfold validate
  simp only [check_bind_eq_ok_iff, checkProvider_eq_ok_iff, checkTimeout_eq_ok_iff]
  constructor
  · rintro ⟨hgitHub, hgitLab, hforgejo, hbranch, hstatus, hfork⟩
    refine ⟨fun p => ?_, hbranch, hstatus, hfork⟩
    cases p with
    | gitHub => exact hgitHub
    | gitLab => exact hgitLab
    | forgejo => exact hforgejo
  · intro h
    exact ⟨h.provider .gitHub, h.provider .gitLab, h.provider .forgejo, h.branch, h.status, h.fork⟩

end Settings
end ForgeChores
