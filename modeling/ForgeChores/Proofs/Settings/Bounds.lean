import ForgeChores.CommandLine.Run
import ForgeChores.Proofs.CommandLine.Reading
import ForgeChores.Proofs.Settings.Accepted
import ForgeChores.Proofs.Wait.Counting

/-!
# ForgeChores.Proofs.Settings.Bounds

No wait of a configured provider runs away. Validation comes after the environment, so what the
environment says is bounded like what the file says; the defaults keep to the bounds as well
(`allowed_timeoutsOf`), and so does what the command line may say instead.
-/

namespace ForgeChores

/-- Options as accepted settings give them. -/
structure WaitOptions.Allowed (o : WaitOptions) : Prop where
  interval : Duration.seconds 2 ≤ o.interval
  positive : Duration.seconds 1 ≤ o.timeout
  timeout : o.timeout ≤ Duration.seconds Settings.maxTimeout

theorem WaitOptions.Allowed.bounded {o : WaitOptions} (h : o.Allowed) : o.Bounded :=
  bounded_of_seconds (Nat.le_trans (by decide) h.interval) h.timeout

def Timeouts.all (t : Timeouts) : List WaitOptions :=
  [t.branch, t.status, t.fork, t.forkReady, t.delete]

namespace Settings

variable {s : Settings}

/-- Whatever they are read from, settings pass validation behind the environment. -/
theorem load_eq_ok {files : Files} {env : Environment} {home explicit source : Option String}
    (h : load files env home explicit = .ok (s, source)) :
    ∃ read : Settings, s = read.overlay env ∧ s.validate = .ok () := by
  unfold load at h
  -- from a file or from nothing, the rest is the same
  rcases hsource : source? files env home explicit with _ | path <;>
  · simp only [hsource] at h
    obtain ⟨read, -, hread⟩ := except_bind_eq_ok.mp h
    split at hread
    · rename_i hvalid
      cases hread
      exact ⟨read, rfl, hvalid⟩
    · cases hread

theorem allowed_withTimeout {o : WaitOptions} {timeout : Option Nat} (ho : o.Allowed)
    (ht : ∀ n, timeout = some n → AllowedTimeout n) :
    (ProviderConfig.withTimeout o timeout).Allowed := by
  cases timeout with
  | none => exact ho
  | some n =>
    obtain ⟨hone, hweek⟩ := ht n rfl
    exact ⟨ho.interval, Nat.mul_le_mul_right _ hone, Nat.mul_le_mul_right _ hweek⟩

theorem allowed_forkReady (h : s.Accepted) (p : Provider) :
    ∀ n, (s.provider p).forkReady.or (ProviderConfig.defaults p).forkReady = some n →
      AllowedTimeout n := by
  intro n hn
  cases hown : (s.provider p).forkReady with
  | some m =>
    rw [hown] at hn
    cases hn
    exact (h.provider p).forkReady _ hown
  | none =>
    rw [hown, Option.none_or] at hn
    cases p with
    | gitLab =>
      cases hn
      exact ⟨by decide, by decide⟩
    | gitHub => cases hn
    | forgejo => cases hn

theorem allowed_timeoutsOf (h : s.Accepted) (p : Provider) :
    ∀ o ∈ (ProviderConfig.ofSettings s p).timeouts.all, o.Allowed := by
  have hdefault : ∀ o ∈ Timeouts.all {}, o.Allowed := by
    intro o ho
    simp only [Timeouts.all, List.mem_cons, List.not_mem_nil, or_false] at ho
    rcases ho with rfl | rfl | rfl | rfl | rfl <;>
      exact ⟨by decide, by decide, by decide⟩
  simp only [Timeouts.all, List.forall_mem_cons] at hdefault ⊢
  obtain ⟨hbranch, hstatus, hfork, hready, hdelete, hnil⟩ := hdefault
  exact ⟨allowed_withTimeout hbranch h.branch, allowed_withTimeout hstatus h.status,
    allowed_withTimeout hfork h.fork, allowed_withTimeout hready (allowed_forkReady h p), hdelete,
    hnil⟩

theorem bounded_statusOptions {o : WaitOptions} {timeout : Option Nat} (ho : o.Allowed)
    (ht : ∀ n, timeout = some n → AllowedTimeout n) (interval : Option Nat) :
    (CommandLine.statusOptions o timeout interval).Bounded := by
  refine WaitOptions.bounded_of_seconds ?_ ?_
  · cases interval with
    | none => exact Nat.le_trans (by decide) ho.interval
    | some n => exact Nat.mul_le_mul_right _ (Nat.le_max_right n 1)
  · cases timeout with
    | none => exact ho.timeout
    | some n => exact Nat.mul_le_mul_right _ (ht n rfl).2

theorem exists_provider_of_mem {c : ProviderConfig} (h : c ∈ (Registry.ofSettings s).configs) :
    ∃ p, c = ProviderConfig.ofSettings s p := by
  obtain ⟨p, -, rfl⟩ := List.mem_map.mp h
  exact ⟨p, rfl⟩

/-- Whatever settings are loaded: every wait of every provider pauses for two seconds at least and
lasts between a second and a week, and nothing overflows in it, nor in a status wait with options
from the command line, which lets no other timeout through. -/
theorem waits_of_load {files : Files} {env : Environment} {home explicit source : Option String}
    (h : load files env home explicit = .ok (s, source)) :
    (∀ c ∈ (Registry.ofSettings s).configs, ∀ o ∈ c.timeouts.all,
      (Duration.seconds 2 ≤ o.interval ∧ Duration.seconds 1 ≤ o.timeout ∧
        o.timeout ≤ Duration.seconds 604800) ∧ o.Bounded) ∧
    (∀ c ∈ (Registry.ofSettings s).configs, ∀ timeout interval,
      (∀ n, timeout = some n → 1 ≤ n ∧ n ≤ 604800) →
      (CommandLine.statusOptions c.timeouts.status timeout interval).Bounded) ∧
    ∀ words call target sha name timeout interval, CommandLine.Call.read words = .ok call →
      call.command = .status target sha name timeout interval →
      ∀ n, timeout = some n → 1 ≤ n ∧ n ≤ 604800 := by
  obtain ⟨_, -, hvalid⟩ := load_eq_ok h
  have haccepted := validate_eq_ok_iff.mp hvalid
  refine ⟨?_, ?_, ?_⟩
  · intro c hc o ho
    obtain ⟨p, rfl⟩ := exists_provider_of_mem hc
    have hallowed := allowed_timeoutsOf haccepted p o ho
    exact ⟨⟨hallowed.interval, hallowed.positive, hallowed.timeout⟩, hallowed.bounded⟩
  · intro c hc timeout interval htimeout
    obtain ⟨p, rfl⟩ := exists_provider_of_mem hc
    exact bounded_statusOptions (allowed_timeoutsOf haccepted p _ (by simp [Timeouts.all])) htimeout
      interval
  · intro words call target sha name timeout interval hread hcommand
    exact CommandLine.timeout_of_read hread hcommand

/-- One file, with the longest and the shortest timeout. -/
def extremeFile : Files := fun path =>
  if path = "forge.toml" then
    .ok (Text.Utf8.encode "[timeouts]\nbranch = 604800\nstatus = 1\n[gitlab]\nfork_ready = 30\n")
  else .error .missing

def weekOfImport : Environment := ⟨[(importVariable, " +10080 ")]⟩

def extreme : Settings :=
  { gitLab := { forkReady := some 604800 }
    timeouts := { branch := some 604800, status := some 1 } }

theorem waits_of_load_extreme :
    load extremeFile weekOfImport none (some "forge.toml") = .ok (extreme, some "forge.toml") ∧
      (ProviderConfig.ofSettings extreme .gitLab).timeouts.forkReady.timeout =
        Duration.seconds 604800 ∧
      (ProviderConfig.ofSettings extreme .gitLab).timeouts.forkReady.Bounded ∧
      (CommandLine.statusOptions (ProviderConfig.ofSettings extreme .gitLab).timeouts.status
        (some 604800) (some 0)).Bounded := by
  have hload : load extremeFile weekOfImport none (some "forge.toml") =
      .ok (extreme, some "forge.toml") := by rfl
  obtain ⟨hwaits, hstatus, -⟩ := waits_of_load hload
  have hmem : ProviderConfig.ofSettings extreme .gitLab ∈
      (Registry.ofSettings extreme).configs := by decide
  exact ⟨hload, rfl, (hwaits _ hmem _ (by simp [Timeouts.all])).2,
    hstatus _ hmem (some 604800) (some 0) (by simp)⟩

end Settings
end ForgeChores
