import ForgeChores.Proofs.InMemory.Runs
import ForgeChores.Proofs.Wait.Agreeing

/-!
# ForgeChores.Proofs.InMemory.Failing

Calls that fail, because they cannot be carried out or because they are set to.

Every call but the wait for a status is one operation (`answer_eq_attempt`), which is logged once and
takes effect as a whole or not at all. What is set to fail is compared to nothing but the kind of an
operation, so over states that differ only in it all other operations agree, and so does the wait for
a status (`answer_agrees`). No call changes a setting (`sameBeside_answer`), so it lasts until the
next one (`failing_run`).

* `failures_atomic`: what a failure leaves behind, and which failures a setting causes.
-/

namespace ForgeChores
namespace InMemory

/-! ## The operation of a call -/

/-- What a call asks for. A wait for a status asks over and over for the statuses of the commit. -/
def operationOf : Forge.Call → Operation
  | .createBranch repo base _ branch => .createBranch (key repo) base branch
  | .deleteBranch repo branch => .deleteBranch (key repo) branch
  | .branchExists repo branch => .branchExists (key repo) branch
  | .listPullRequests repo => .listPullRequests (key repo)
  | .createPullRequest repo _ _ head base => .createPullRequest (key repo) head base
  | .mergePullRequest repo number => .mergePullRequest (key repo) number
  | .closePullRequest repo number => .closePullRequest (key repo) number
  | .createFile repo path _ branch => .createFile (key repo) path branch
  | .getFile repo path branch => .getFile (key repo) path branch
  | .cleanupWebhooks repo host => .cleanupWebhooks (key repo) host
  | .forkRepository source target => .forkRepository (key source) (key target)
  | .deleteRepository repo => .deleteRepository (key repo)
  | .listCommitStatuses repo commit => .listCommitStatuses (key repo) commit
  | .statusConclusion repo commit _ _ => .listCommitStatuses (key repo) commit

/-- Whether a call is one operation. -/
def isOperation : Forge.Call → Bool
  | .statusConclusion _ _ _ _ => false
  | _ => true

/-- The setting that is for a call. That of the lists of statuses is for the wait for one, too. -/
def settingOf : Forge.Call → Operation.Kind
  | .createBranch .. => .createBranch
  | .deleteBranch .. => .deleteBranch
  | .branchExists .. => .branchExists
  | .listPullRequests .. => .listPullRequests
  | .createPullRequest .. => .createPullRequest
  | .mergePullRequest .. => .mergePullRequest
  | .closePullRequest .. => .closePullRequest
  | .createFile .. => .createFile
  | .getFile .. => .getFile
  | .cleanupWebhooks .. => .cleanupWebhooks
  | .forkRepository .. => .forkRepository
  | .deleteRepository .. => .deleteRepository
  | .listCommitStatuses .. => .listCommitStatuses
  | .statusConclusion .. => .listCommitStatuses

/-- Whether an action changes what is set to fail. -/
def Action.setsFailure : Action → Bool
  | .failOn _ _ => true
  | .clearFailure => true
  | _ => false

variable {α : Type} {p : Provider} {s t : InMemory} {call : Forge.Call} {op : Operation}

theorem kind_operationOf (call : Forge.Call) : (operationOf call).kind = settingOf call := by
  cases call <;> rfl

theorem answer_eq_attempt (p : Provider) (h : isOperation call = true) :
    ∃ (α : Type) (change : String → Table String Repository →
        Except ForgeError (α × Table String Repository)) (toAnswer : α → Forge.Answer),
      (forge p).answer call =
        Task.ofAttempt (attempt (operationOf call) change) >>= fun a => pure (toAnswer a) := by
  cases call with
  | statusConclusion repo commit name o => cases h
  | _ => exact ⟨_, _, _, rfl⟩

/-! ## Failing -/

/-- Both are the same but for what is set to fail, which is not `op`. -/
structure Unhindered (op : Operation) (s t : InMemory) : Prop where
  same : s.clearFailure = t.clearFailure
  left : s.failureOf op = none
  right : t.failureOf op = none

theorem failureOf_congr {op : Operation} (h : s.failing = t.failing) :
    s.failureOf op = t.failureOf op := by
  unfold failureOf
  rw [h]

/-- The states are the same beside the repositories, the count of commits and the log. -/
structure SameBeside (s s' : InMemory) : Prop where
  nextHook : s'.nextHook = s.nextHook
  failing : s'.failing = s.failing

theorem SameBeside.refl (s : InMemory) : SameBeside s s := ⟨rfl, rfl⟩

theorem SameBeside.trans {u : InMemory} (h : SameBeside s t) (h' : SameBeside t u) :
    SameBeside s u :=
  ⟨h'.nextHook.trans h.nextHook, h'.failing.trans h.failing⟩

theorem sameBeside_perform (op : Operation)
    (change : String → Table String Repository →
      Except ForgeError (α × Table String Repository)) (s : InMemory) :
    SameBeside s (perform op change s).2 := by
  have hperformed := performed op change s
  generalize perform op change s = after at hperformed ⊢
  cases hperformed with
  | refused _ => exact ⟨rfl, rfl⟩
  | failed _ _ | done _ _ =>
    simp only [advance_eq]
    exact ⟨rfl, rfl⟩

theorem attempt_agrees (change : String → Table String Repository →
      Except ForgeError (α × Table String Repository)) :
    (attempt op change).Agrees (Unhindered op) := by
  refine Attempt.agrees_step fun s t h => ?_
  have hs : (perform op change s).2.failureOf op = none :=
    (failureOf_congr (sameBeside_perform op change s).failing).trans h.left
  have ht : (perform op change t).2.failureOf op = none :=
    (failureOf_congr (sameBeside_perform op change t).failing).trans h.right
  obtain ⟨repos, nextCommit, nextHook, failing, log⟩ := s
  obtain ⟨repos', nextCommit', nextHook', failing', log'⟩ := t
  have hsame := h.same
  simp only [clearFailure, InMemory.mk.injEq] at hsame
  obtain ⟨rfl, rfl, rfl, -, rfl⟩ := hsame
  refine ⟨rfl, ?_, ?_, hs, ht⟩
  · simp only [perform, h.left, h.right]
    cases change (commitHash nextCommit) repos <;> rfl
  · simp only [perform, h.left, h.right, advance]
    cases op.makesCommit <;> cases change (commitHash nextCommit) repos <;> rfl

theorem answer_agrees (p : Provider) (call : Forge.Call) :
    ((forge p).answer call).Agrees (Unhindered (operationOf call)) := by
  by_cases h : isOperation call = true
  · obtain ⟨α, change, toAnswer, hanswer⟩ := answer_eq_attempt p h
    rw [hanswer]
    exact (Task.Agrees.ofAttempt (attempt_agrees change)).bind fun _ => Task.agrees_pure _
  · cases call with
    | statusConclusion repo commit name o =>
      have hreport : (listCommitStatuses repo commit).Agrees
          (Unhindered (.listCommitStatuses (key repo) commit)) := attempt_agrees _
      exact (Wait.forStatus_agrees hreport).mapError.bind fun _ => Task.agrees_pure _
    | _ => exact absurd rfl h

/-! ## One call -/

theorem answer_of_operation (p : Provider) (s : InMemory) (h : isOperation call = true) :
    ∃ (α : Type) (change : String → Table String Repository →
        Except ForgeError (α × Table String Repository)) (toAnswer : α → Forge.Answer),
      (forge p).answer call s = ⟨(perform (operationOf call) change s).1.map toAnswer, 0,
        (perform (operationOf call) change s).2⟩ := by
  obtain ⟨α, change, toAnswer, hanswer⟩ := answer_eq_attempt p h
  refine ⟨α, change, toAnswer, ?_⟩
  rw [hanswer, Task.bind_pure, ofAttempt_attempt]

theorem log_answer (p : Provider) (s : InMemory) (h : isOperation call = true) :
    ((forge p).answer call s).state.log = s.log.push (operationOf call) := by
  obtain ⟨α, change, toAnswer, hanswer⟩ := answer_of_operation p s h
  rw [hanswer]
  have hperformed := performed (operationOf call) change s
  generalize perform (operationOf call) change s = after at hperformed ⊢
  have hlog : (InMemory.advance { s with log := s.log.push (operationOf call) }
      (operationOf call)).log = s.log.push (operationOf call) := by
    rw [advance_eq]
  cases hperformed with
  | refused _ => rfl
  | failed _ _ => exact hlog
  | done _ _ => exact hlog

theorem sameBeside_answer (p : Provider) (call : Forge.Call) (s : InMemory) :
    SameBeside s ((forge p).answer call s).state := by
  by_cases hop : isOperation call = true
  · obtain ⟨α, change, toAnswer, hanswer⟩ := answer_of_operation p s hop
    rw [hanswer]
    exact sameBeside_perform _ change s
  · cases call with
    | statusConclusion repo commit name o =>
      have hreport : (listCommitStatuses repo commit).Leads SameBeside :=
        Attempt.leads_step fun s => sameBeside_perform _ _ s
      exact statusConclusion_leads SameBeside.refl (fun _ _ _ => SameBeside.trans) hreport p name o s
    | _ => exact absurd rfl hop

/-- An operation that fails leaves no more behind than its entry in the log and a gap between
commits. -/
theorem state_of_failure {e : ForgeError} (h : isOperation call = true)
    (he : ((forge p).answer call s).result = .error e) :
    ∃ used, used ≤ 1 ∧ ((forge p).answer call s).state =
      { s with log := s.log.push (operationOf call), nextCommit := s.nextCommit + used } := by
  obtain ⟨α, change, toAnswer, hanswer⟩ := answer_of_operation p s h
  rw [hanswer] at he ⊢
  have hperformed := performed (operationOf call) change s
  generalize perform (operationOf call) change s = after at hperformed he ⊢
  cases hperformed with
  | refused _ => exact ⟨0, Nat.zero_le 1, rfl⟩
  | failed _ _ => exact ⟨_, Bool.toNat_le _, advance_eq _ (operationOf call)⟩
  | done _ _ => cases he

/-- An operation that is set to fail does nothing but that. -/
theorem answer_of_set {e : ForgeError} (h : isOperation call = true)
    (hset : s.failureOf (operationOf call) = some e) :
    (forge p).answer call s = ⟨.error e, 0, { s with log := s.log.push (operationOf call) }⟩ := by
  obtain ⟨α, change, toAnswer, hanswer⟩ := answer_of_operation p s h
  rw [hanswer]
  simp only [perform, hset]
  rfl

/-! ## Runs -/

theorem failing_act {a : Action} (h : a.setsFailure = false) : (act p s a).failing = s.failing := by
  cases a with
  | call c => exact (sameBeside_answer p c s).failing
  | scriptStatuses repo commit reports =>
    simp only [act, scriptStatuses]
    split <;> rfl
  | failOn kind e => cases h
  | clearFailure => cases h
  | _ => rfl

/-- What is set to fail stays set until it is set anew or cleared. -/
theorem failing_run {actions : List Action} (h : ∀ a ∈ actions, a.setsFailure = false) :
    (run p actions s).failing = s.failing := by
  induction actions generalizing s with
  | nil => rfl
  | cons a rest ih =>
    obtain ⟨ha, hrest⟩ := List.forall_mem_cons.mp h
    exact (ih hrest).trans (failing_act ha)

/-- Every operation is logged once, under full paths, and if it fails nothing else has changed but
that the name of a commit may be used up. What is set to fail does, with the error that is set, until
something else is set or nothing; every other operation ends the way it would have without it, and so
does the wait for a status. -/
theorem failures_atomic (p : Provider) :
    (∀ (s : InMemory) (call : Forge.Call), isOperation call = true →
      ((forge p).answer call s).state.log = s.log.push (operationOf call) ∧
      ∀ e, ((forge p).answer call s).result = .error e →
        ∃ used, used ≤ 1 ∧ ((forge p).answer call s).state =
          { s with log := s.log.push (operationOf call), nextCommit := s.nextCommit + used }) ∧
    (∀ (s : InMemory) (kind : Operation.Kind) (e : ForgeError) (actions : List Action),
      (∀ a ∈ actions, a.setsFailure = false) →
      let s' := run p actions (s.failOn kind e)
      ∀ call : Forge.Call,
        (settingOf call = kind → isOperation call = true →
          (forge p).answer call s' =
            ⟨.error e, 0, { s' with log := s'.log.push (operationOf call) }⟩) ∧
        (settingOf call ≠ kind →
          ((forge p).answer call s').Alike (fun t t' => t.clearFailure = t'.clearFailure)
            ((forge p).answer call s'.clearFailure))) ∧
    ∀ (s : InMemory) (kind : Operation.Kind) (e : ForgeError),
      (s.failOn kind e).clearFailure = s.clearFailure ∧
      ∀ kind' e', (s.failOn kind e).failOn kind' e' = s.failOn kind' e' := by
  refine ⟨fun s call hop => ⟨log_answer p s hop, fun e he => state_of_failure hop he⟩,
    ?_, fun s kind e => ⟨rfl, fun _ _ => rfl⟩⟩
  intro s kind e actions hactions s' call
  have hset : s'.failing = some (kind, e) := failing_run hactions
  have hfailure : s'.failureOf (operationOf call) =
      if kind = settingOf call then some e else none := by
    rw [failureOf, hset, ← kind_operationOf]
  refine ⟨fun hkind hop => answer_of_set hop ?_, fun hkind => ?_⟩
  · rw [hfailure, if_pos hkind.symm]
  · have hunhindered : Unhindered (operationOf call) s' s'.clearFailure :=
      ⟨rfl, by rw [hfailure, if_neg (Ne.symm hkind)], rfl⟩
    have halike := answer_agrees p call s' s'.clearFailure hunhindered
    exact ⟨halike.result, halike.elapsed, halike.state.same⟩

/-- Two branches, and a pull request from one to the other that was not opened. -/
def unopenedPull : List Action :=
  [.withRepository "o/r" ["main"], .call (.createBranch "o/r" "main" "" "feat"),
    .call (.createPullRequest "o/r" "title" "" "feat" "main")]

/-- The thirteen settings, each with a call that it is for. -/
def oneOfEach : List (Operation.Kind × Forge.Call) :=
  [(.createBranch, .createBranch "o/r" "main" "" "feat"), (.deleteBranch, .deleteBranch "o/r" "feat"),
    (.branchExists, .branchExists "o/r" "feat"), (.listPullRequests, .listPullRequests "o/r"),
    (.createPullRequest, .createPullRequest "o/r" "title" "" "feat" "main"),
    (.mergePullRequest, .mergePullRequest "o/r" 1), (.closePullRequest, .closePullRequest "o/r" 1),
    (.createFile, .createFile "o/r" "a" "text" "main"), (.getFile, .getFile "o/r" "a" "main"),
    (.cleanupWebhooks, .cleanupWebhooks "o/r" "b.test"),
    (.forkRepository, .forkRepository "o/r" "p/r"), (.deleteRepository, .deleteRepository "o/r"),
    (.listCommitStatuses, .listCommitStatuses "o/r" "c0ffee")]

/-- While opening pull requests is set to fail, it does under any spelling; merging the one that was
not opened fails too, because it is not there, and uses up the name of a commit. Each of the thirteen
settings makes its own call fail and leaves the twelve others as they are. -/
theorem failures_atomic_unopened :
    let refused : ForgeError := .transient "opening" "out of order"
    let s' := run .gitHub unopenedPull (failOn {} .createPullRequest refused)
    (∀ a ∈ unopenedPull, a.setsFailure = false) ∧
      (forge .gitHub).answer (.createPullRequest " /o/r/ " "again" "" "feat" "main") s' =
        ⟨.error refused, 0, { s' with log := s'.log.push (.createPullRequest "o/r" "feat" "main") }⟩ ∧
      ((forge .gitHub).answer (.mergePullRequest "o/r" 1) s').result =
        .error (missingPull (Context.mergePull 1 "o/r")) ∧
      (((forge .gitHub).answer (.mergePullRequest "o/r" 1) s').result =
        ((forge .gitHub).answer (.mergePullRequest "o/r" 1) s'.clearFailure).result) ∧
      (∃ used, used ≤ 1 ∧ ((forge .gitHub).answer (.mergePullRequest "o/r" 1) s').state =
        { s' with
          log := s'.log.push (.mergePullRequest "o/r" 1), nextCommit := s'.nextCommit + used }) ∧
      (oneOfEach.map (·.1)).Nodup ∧ oneOfEach.length = 13 ∧
      ∀ own ∈ oneOfEach,
        ((forge .gitHub).answer own.2 (failOn {} own.1 refused)).result = .error refused ∧
        ∀ other ∈ oneOfEach, other.1 ≠ own.1 →
          ((forge .gitHub).answer other.2 (failOn {} own.1 refused)).result =
            ((forge .gitHub).answer other.2 {}).result := by
  intro refused s'
  have hactions : ∀ a ∈ unopenedPull, a.setsFailure = false := by decide
  have hpairs : ∀ c ∈ oneOfEach, settingOf c.2 = c.1 ∧ isOperation c.2 = true := by decide
  obtain ⟨hatomic, hset, -⟩ := failures_atomic .gitHub
  have hmerge : ((forge .gitHub).answer (.mergePullRequest "o/r" 1) s').result =
      .error (missingPull (Context.mergePull 1 "o/r")) := rfl
  refine ⟨hactions, ?_, hmerge, ?_, ?_, by decide, rfl, fun own hown => ⟨?_, ?_⟩⟩
  · exact (hset {} .createPullRequest refused unopenedPull hactions _).1 rfl rfl
  · exact ((hset {} .createPullRequest refused unopenedPull hactions _).2 (by decide)).result
  · exact (hatomic s' _ rfl).2 _ hmerge
  · obtain ⟨hsetting, hop⟩ := hpairs own hown
    exact congrArg Timed.result ((hset {} own.1 refused [] nofun own.2).1 hsetting hop)
  · intro other hother hne
    rw [← (hpairs other hother).1] at hne
    exact ((hset {} own.1 refused [] nofun other.2).2 hne).result

end InMemory
end ForgeChores
