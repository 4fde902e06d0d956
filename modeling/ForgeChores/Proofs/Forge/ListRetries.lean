import Mathlib.Tactic.Ring
import ForgeChores.Proofs.Forge.Connected
import ForgeChores.Proofs.Http.PagingBatches

/-!
# ForgeChores.Proofs.Forge.ListRetries

How GitLab lists merge requests: from the first page on, and from there again after each failure
that is transient.

An attempt is told from the ones before it by the exchange that they have left behind
(`leftBy`). Nothing else passes from one attempt to the next, for a failure brings no list with it.
So the attempts of a call are known before it is made, and so are the times at which they begin,
because the pauses do not depend on what the server replies.

* `retried_retrying`: which of the attempts are made, for any operation that is tried again.
* `beginsAt_eq_sum`: how long it takes until an attempt begins, the pauses on their own.
* `leftBy_listOnce`: what the attempts at a list have sent.
* `listPullRequests_attempts`: all of it for lists of merge requests.
-/

namespace ForgeChores

/-- A failure after which an operation may be tried again. -/
def FailsTransient {α : Type} (result : Except ForgeError α) : Prop :=
  ∃ e, result = .error e ∧ e.isTransient = true

namespace Duration

theorem effective_of_reachable {d : Nat} (h : isReachable d = true) : effective d = d := if_pos h

/-- The clock can name every instant that is no more than half the longest span away. -/
theorem isReachable_of_two_mul_le {d : Nat} (h : 2 * d ≤ longest) : isReachable d = true := by
  have hclock : longest < 2 * seconds (Nat.pow 2 63) := by decide
  exact decide_eq_true (by omega)

end Duration

namespace GitLab

section Attempts

variable {α : Type} (m : Attempt Exchange ForgeError α) (delay : Nat) (x : Exchange)

/-- The exchange as the first `i` attempts leave it. -/
def leftBy : (i : Nat) → Exchange
  | 0 => x
  | i + 1 => (Task.ofAttempt m (leftBy i)).state

/-- The attempt that comes after `i` others. -/
def attempt (i : Nat) : Timed Exchange (Except ForgeError α) := Task.ofAttempt m (leftBy m x i)

/-- When it begins, if the first pause takes `delay` and each later one twice as long as the one
before. -/
def beginsAt : (i : Nat) → Nat
  | 0 => 0
  | i + 1 => beginsAt i + (attempt m x i).elapsed + delay * 2 ^ i

/-- What comes of an operation that is tried `n + 1` times: all attempts but the last fail and the
failures are transient, and the last one stands. If that fails too and its failure is transient, no
attempt is left. -/
structure Retried (attempts n : Nat) (t : Timed Exchange (Except ForgeError α)) : Prop where
  few : n < attempts
  earlier : ∀ i < n, FailsTransient (attempt m x i).result
  last : FailsTransient (attempt m x n).result → n + 1 = attempts
  result : t.result = (attempt m x n).result
  state : t.state = (attempt m x n).state
  elapsed : t.elapsed = beginsAt m delay x n + (attempt m x n).elapsed

end Attempts

variable {α : Type} {m : Attempt Exchange ForgeError α} {delay attempts n : Nat} {x : Exchange}
  {t : Timed Exchange (Except ForgeError α)}

/-! ## Attempts seen from the second one -/

theorem leftBy_succ (i : Nat) : leftBy m x (i + 1) = leftBy m (Task.ofAttempt m x).state i := by
  induction i with
  | zero => rfl
  | succ i ih => rw [leftBy, ih, leftBy]

theorem attempt_succ (i : Nat) :
    attempt m x (i + 1) = attempt m (Task.ofAttempt m x).state i := by
  unfold attempt
  rw [leftBy_succ]

theorem beginsAt_succ (i : Nat) :
    beginsAt m delay x (i + 1) =
      (attempt m x 0).elapsed + delay + beginsAt m (2 * delay) (Task.ofAttempt m x).state i := by
  induction i with
  | zero => simp [beginsAt]
  | succ i ih =>
    rw [beginsAt, ih, beginsAt, attempt_succ, Nat.pow_succ]
    ring

/-! ## Which attempts are made -/

/-- One attempt that is not followed by another. -/
theorem retried_once (hattempts : 0 < attempts)
    (hlast : FailsTransient (Task.ofAttempt m x).result → 1 = attempts)
    (ht : t = Task.ofAttempt m x) : Retried m delay x attempts 0 t where
  few := hattempts
  earlier := fun i hi => absurd hi (Nat.not_lt_zero i)
  last := hlast
  result := congrArg Timed.result ht
  state := congrArg Timed.state ht
  elapsed := by
    rw [ht]
    exact (Nat.zero_add _).symm

/-- An attempt that fails before the attempts that are left. -/
theorem Retried.again (hfirst : FailsTransient (attempt m x 0).result)
    (h : Retried m (2 * delay) (Task.ofAttempt m x).state attempts n t) :
    Retried m delay x (attempts + 1) (n + 1)
      ⟨t.result, (attempt m x 0).elapsed + (delay + t.elapsed), t.state⟩ where
  few := Nat.succ_lt_succ h.few
  earlier := by
    intro i hi
    cases i with
    | zero => exact hfirst
    | succ i =>
      rw [attempt_succ]
      exact h.earlier i (Nat.lt_of_succ_lt_succ hi)
  last := by
    rw [attempt_succ]
    intro hlast
    exact congrArg (· + 1) (h.last hlast)
  result := by rw [attempt_succ, h.result]
  state := by rw [attempt_succ, h.state]
  elapsed := by
    rw [attempt_succ, beginsAt_succ, h.elapsed]
    ring

theorem retrying_eq (m : Attempt Exchange ForgeError α) (attempts delay : Nat) (x : Exchange) :
    retrying m (attempts + 2) delay x =
      match Task.ofAttempt m x with
      | ⟨.ok a, spent, s⟩ => ⟨.ok a, spent, s⟩
      | ⟨.error e, spent, s⟩ =>
        if e.isTransient then
          let later := retrying m (attempts + 1) (2 * delay) s
          ⟨later.result, spent + (Duration.effective delay + later.elapsed), later.state⟩
        else ⟨.error e, spent, s⟩ := by
  rw [retrying, Task.liftM_eq_ofAttempt, Task.ofAttempt_caught, Task.caught_bind]
  rcases Task.ofAttempt m x with ⟨_ | a, spent, s⟩
  · rename_i e
    by_cases he : e.isTransient = true
    · simp only [he, if_true]
      rfl
    · simp only [he]
      rfl
  · rfl

/-- The attempts that are made, if no pause is too long for the clock. -/
theorem retried_retrying (m : Attempt Exchange ForgeError α) (attempts delay : Nat) (x : Exchange)
    (hclock : ∀ i < attempts, Duration.isReachable (delay * 2 ^ i) = true) :
    ∃ n, Retried m delay x (attempts + 1) n (retrying m (attempts + 1) delay x) := by
  induction attempts generalizing delay x with
  | zero => exact ⟨0, retried_once (Nat.succ_pos 0) (fun _ => rfl) rfl⟩
  | succ attempts ih =>
    rw [retrying_eq]
    rcases hfirst : Task.ofAttempt m x with ⟨e | a, spent, s⟩
    · by_cases he : e.isTransient = true
      · -- the first pause passes as it is, and the later ones are those after twice the delay
        have hpause : Duration.effective delay = delay :=
          Duration.effective_of_reachable (by simpa using hclock 0 (Nat.succ_pos attempts))
        have hlater : ∀ i < attempts, Duration.isReachable (2 * delay * 2 ^ i) = true := by
          intro i hi
          have hnext := hclock (i + 1) (Nat.succ_lt_succ hi)
          rwa [Nat.pow_succ, Nat.mul_comm _ 2, ← Nat.mul_assoc, Nat.mul_comm delay 2] at hnext
        obtain ⟨n, hn⟩ := ih (2 * delay) s hlater
        have hs : (Task.ofAttempt m x).state = s := congrArg Timed.state hfirst
        have hspent : (attempt m x 0).elapsed = spent := congrArg Timed.elapsed hfirst
        have htransient : FailsTransient (attempt m x 0).result :=
          ⟨e, congrArg Timed.result hfirst, he⟩
        rw [← hs] at hn
        have hagain := hn.again htransient
        rw [hspent, hs] at hagain
        simp only [he, if_true, hpause]
        exact ⟨n + 1, hagain⟩
      · have hdone : ¬ FailsTransient (Task.ofAttempt m x).result := by
          rw [hfirst]
          rintro ⟨e', he', htransient⟩
          cases he'
          exact he htransient
        simp only [he]
        exact ⟨0, retried_once (Nat.succ_pos _) (fun h => absurd h hdone) hfirst.symm⟩
    · have hdone : ¬ FailsTransient (Task.ofAttempt m x).result := by
        rw [hfirst]
        rintro ⟨e, he, -⟩
        cases he
      exact ⟨0, retried_once (Nat.succ_pos _) (fun h => absurd h hdone) hfirst.symm⟩

/-- The pauses before an attempt are one short of a power of two, in units of the first. -/
theorem beginsAt_eq_sum (m : Attempt Exchange ForgeError α) (delay : Nat) (x : Exchange) (n : Nat) :
    beginsAt m delay x n =
      ((List.range n).map fun i => (attempt m x i).elapsed).sum + delay * (2 ^ n - 1) := by
  induction n with
  | zero => rfl
  | succ n ih =>
    have hpauses : 2 ^ (n + 1) - 1 = 2 ^ n - 1 + 2 ^ n := by
      have := Nat.one_le_two_pow (n := n)
      omega
    rw [beginsAt, ih, List.range_succ, List.map_append, List.sum_append, List.map_singleton,
      List.sum_singleton, hpauses]
    ring

/-! ## Lists of merge requests -/

/-- Where the open merge requests of a project are listed. -/
def listUrl (g : GitLab) (repo : String) : Url :=
  (g.api.projectUrl (g.project repo) ["merge_requests"]).addQuery "state" "opened"

def listRequest (g : GitLab) (repo : String) (page : Nat) : Request :=
  Http.pageRequest (g.listUrl repo) pageStyle page

/-- What is sent by the attempt that comes after `i` others. -/
def listRequests (g : GitLab) (repo : String) (x : Exchange) (i : Nat) : List Request :=
  (Http.pagesAsked (listContext (g.project repo)) (g.listUrl repo) pageStyle (.list mergeRequest)
    (leftBy (g.listOnce repo) x i)).map (g.listRequest repo)

/-- The replies are pages of merge requests, from the first one to the end of the list. -/
def Listed (g : GitLab) (repo : String) (replies : List Reply) (pulls : List PullRequest) : Prop :=
  ∃ batches, Http.BatchesFrom (listContext (g.project repo)) (g.listUrl repo) pageStyle
    (.list mergeRequest) replies 1 batches ∧ pulls = batches.flatten

theorem isHttp_listUrl (g : GitLab) (repo : String) :
    (g.listUrl repo).isHttp = g.api.base.isHttp :=
  (Url.isHttp_addQuery _ _ _).trans (Client.isHttp_projectUrl _ _ _)

theorem leftBy_listOnce (g : GitLab) (repo : String) (x : Exchange) (i : Nat) :
    leftBy (g.listOnce repo) x i = x.after ((List.range i).flatMap (g.listRequests repo x)) := by
  induction i with
  | zero => exact x.after_nil.symm
  | succ i ih =>
    have hattempt : leftBy (g.listOnce repo) x (i + 1) =
        (leftBy (g.listOnce repo) x i).after (g.listRequests repo x i) :=
      Http.state_pages (leftBy (g.listOnce repo) x i)
    rw [hattempt, List.range_succ, List.flatMap_append, List.flatMap_singleton,
      ← Exchange.after_after, ← ih]

theorem result_attempt_ok_iff {g : GitLab} {repo : String} {x : Exchange} {i : Nat}
    {pulls : List PullRequest} :
    (attempt (g.listOnce repo) x i).result = .ok pulls ↔
      g.api.base.isHttp = true ∧ g.Listed repo (leftBy (g.listOnce repo) x i).pending pulls := by
  rw [← isHttp_listUrl g repo]
  exact Http.pages_ok_iff

/-- Merge requests are listed in up to five attempts, each from the first page on. Another attempt
is made exactly after a failure that is transient, when the pause is over that doubles each time, and
all that comes of the call is what its last attempt comes to. -/
theorem listPullRequests_attempts (g : GitLab) (repo : String) (x : Exchange)
    (hdelay : 16 * g.retryDelay ≤ Duration.longest) :
    let t := g.forge.listPullRequests repo x
    let m := g.listOnce repo
    ∃ n, Retried m g.retryDelay x 5 n t ∧
      t.elapsed = ((List.range (n + 1)).map fun i => (attempt m x i).elapsed).sum +
        g.retryDelay * (2 ^ n - 1) ∧
      t.state = x.after ((List.range (n + 1)).flatMap (g.listRequests repo x)) ∧
      (g.api.base.isHttp = true →
        ∀ i, ∃ later, g.listRequests repo x i = g.listRequest repo 1 :: later) ∧
      ∀ pulls, t.result = .ok pulls ↔
        g.api.base.isHttp = true ∧ g.Listed repo (leftBy m x n).pending pulls := by
  intro t m
  have hclock : ∀ i < 4, Duration.isReachable (g.retryDelay * 2 ^ i) = true := by
    intro i hi
    have hpower : 2 ^ (i + 1) ≤ 2 ^ 4 := Nat.pow_le_pow_right (by decide) hi
    refine Duration.isReachable_of_two_mul_le ?_
    calc 2 * (g.retryDelay * 2 ^ i) = 2 ^ (i + 1) * g.retryDelay := by ring
      _ ≤ 2 ^ 4 * g.retryDelay := Nat.mul_le_mul_right _ hpower
      _ ≤ Duration.longest := hdelay
  obtain ⟨n, hn⟩ := retried_retrying m 4 g.retryDelay x hclock
  have htime := hn.elapsed
  rw [beginsAt_eq_sum] at htime
  refine ⟨n, hn, ?_, ?_, ?_, ?_⟩
  · rw [List.range_succ, List.map_append, List.sum_append, List.map_singleton, List.sum_singleton]
    exact htime.trans (Nat.add_right_comm _ _ _)
  · exact hn.state.trans (leftBy_listOnce g repo x (n + 1))
  · intro hbase i
    obtain ⟨later, hlater⟩ := Http.pagesAsked_eq_cons ((isHttp_listUrl g repo).trans hbase)
      (leftBy m x i)
    refine ⟨later.map (g.listRequest repo), ?_⟩
    rw [listRequests, hlater, List.map_cons]
  · intro pulls
    have hresult : t.result = (attempt m x n).result := hn.result
    rw [hresult]
    exact result_attempt_ok_iff

end GitLab

/-- A server that breaks off a list after its first page, and gives a shorter list the next time. -/
def listBrokenOff : List Reply :=
  [.prompt [("x-next-page", "2")]
      "[\x7b\"iid\":1,\"source_branch\":\"a\",\"target_branch\":\"main\"\x7d]",
    ⟨0, some ⟨503, [], some []⟩⟩,
    .prompt [] "[\x7b\"iid\":2,\"source_branch\":\"b\",\"target_branch\":\"main\"\x7d]"]

/-- There the second attempt is the last one, and of the first page nothing is kept. -/
theorem listPullRequests_attempts_brokenOff :
    let t := publicGitLab.forge.listPullRequests "o/r" ⟨listBrokenOff, #[]⟩
    let m := publicGitLab.listOnce "o/r"
    t.result = .ok [⟨2, "b", "main", "", ""⟩] ∧ t.elapsed = Duration.seconds 5 ∧
      GitLab.Retried m publicGitLab.retryDelay ⟨listBrokenOff, #[]⟩ 5 1 t ∧
      publicGitLab.Listed "o/r" (listBrokenOff.drop 2) [⟨2, "b", "main", "", ""⟩] ∧
      t.state.sent.toList.map (fun q => (q.method, q.url.query)) = [
        (.get, some "state=opened&per_page=100&page=1"),
        (.get, some "state=opened&per_page=100&page=2"),
        (.get, some "state=opened&per_page=100&page=1")] := by
  intro t m
  have hresult : t.result = .ok [⟨2, "b", "main", "", ""⟩] := by rfl
  have helapsed : t.elapsed = Duration.seconds 5 := by rfl
  have hfirst : ∃ e, (GitLab.attempt m ⟨listBrokenOff, #[]⟩ 0).result = .error e := ⟨_, by rfl⟩
  have hsecond : (GitLab.attempt m ⟨listBrokenOff, #[]⟩ 1).result =
      .ok [⟨2, "b", "main", "", ""⟩] := by rfl
  have hreplies : (GitLab.leftBy m ⟨listBrokenOff, #[]⟩ 1).pending = listBrokenOff.drop 2 := by rfl
  obtain ⟨n, hretried, -, -, -, hlist⟩ := GitLab.listPullRequests_attempts publicGitLab "o/r"
    ⟨listBrokenOff, #[]⟩ (by decide)
  have hn : n = 1 := by
    rcases Nat.lt_trichotomy n 1 with hn | hn | hn
    · obtain rfl : n = 0 := Nat.lt_one_iff.mp hn
      obtain ⟨e, he⟩ := hfirst
      rw [hretried.result, he] at hresult
      cases hresult
    · exact hn
    · obtain ⟨e, he, -⟩ := hretried.earlier 1 hn
      rw [hsecond] at he
      cases he
  subst hn
  have hlisted := ((hlist _).mp hresult).2
  rw [hreplies] at hlisted
  exact ⟨hresult, helapsed, hretried, hlisted, by decide +kernel⟩

end ForgeChores
