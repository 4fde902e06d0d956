import ForgeChores.Proofs.Forge.BranchUrl
import ForgeChores.Proofs.Forge.Deletion

/-!
# ForgeChores.Proofs.Forge.BranchOutcome

What one answer means for a branch, on every forge.

A look for a branch and its deletion go by the same answer (`Response.verdict`), and no forge takes
anything else into account. So the forges agree on both, and a look finds a branch missing exactly
if the deletion would.
-/

namespace ForgeChores

/-- A forge for the organization `org` that is reached over HTTP. -/
inductive ReachedFor (org : String) : Forge Exchange → Prop where
  | gitHub {g : GitHub} : g.org = org → g.api.base.isHttp = true → ReachedFor org g.forge
  | gitLab {g : GitLab} : g.group = org → g.api.base.isHttp = true → ReachedFor org g.forge
  | forgejo {g : Forgejo} : g.org = org → g.api.base.isHttp = true → ReachedFor org g.forge

/-- The next request is answered with `r` in time. -/
def Exchange.Delivers (x : Exchange) (r : Response) : Prop :=
  (x.replyAt 0).delay < requestTimeout ∧ (x.replyAt 0).answer = some r

/-- What an answer comes to when its body is left aside. -/
def Response.verdict (context : String) (r : Response) : Except ForgeError Unit :=
  if r.isSuccess then .ok () else .error (r.failure context)

variable {org repo branch context : String} {f : Forge Exchange} {x : Exchange} {r : Response}
  {q : Request}

theorem Exchange.Delivers.outcome (h : x.Delivers r) :
    (Exchange.outcome context q (x.replyAt 0)).2.map (fun _ => ()) = r.verdict context := by
  have hearly : ¬ requestTimeout ≤ (x.replyAt 0).delay := Nat.not_le.mpr h.1
  unfold Exchange.outcome Response.verdict
  simp only [hearly, if_false, h.2]
  split <;> rfl

theorem result_sendEmpty (hq : q.url.isHttp = true) (h : x.Delivers r) :
    (Task.ofAttempt (Http.sendEmpty context q) x).result = r.verdict context := by
  rw [Http.sendEmpty_eq_ask hq, Http.ofAttempt_ask]
  exact h.outcome

theorem result_isThere (hq : q.url.isHttp = true) (h : x.Delivers r) :
    (Task.ofAttempt (Http.isThere context q) x).result = Http.there (r.verdict context) := by
  rw [Http.isThere_eq_ask hq, Http.ofAttempt_ask]
  exact congrArg Http.there h.outcome

namespace ReachedFor

theorem branchExists_result (hf : ReachedFor org f) (h : x.Delivers r) :
    (f.branchExists repo branch x).result =
      Http.there (r.verdict (Context.checkBranch branch (RepoPath.parse repo org).fullPath)) := by
  cases hf with
  | gitHub horg hbase =>
    subst horg
    exact result_isThere ((Client.isHttp_repoUrl _ _ _).trans hbase) h
  | gitLab horg hbase =>
    subst horg
    exact result_isThere ((Client.isHttp_projectUrl _ _ _).trans hbase) h
  | forgejo horg hbase =>
    subst horg
    exact result_isThere ((Client.isHttp_repoUrl _ _ _).trans hbase) h

theorem deleteBranch_result (hf : ReachedFor org f) (h : x.Delivers r) :
    (f.deleteBranch repo branch x).result =
      r.verdict (Context.deleteBranch branch (RepoPath.parse repo org).fullPath) := by
  cases hf with
  | gitHub horg hbase =>
    subst horg
    exact result_sendEmpty ((Client.isHttp_repoUrl _ _ _).trans hbase) h
  | gitLab horg hbase =>
    subst horg
    exact result_sendEmpty ((Client.isHttp_projectUrl _ _ _).trans hbase) h
  | forgejo horg hbase =>
    subst horg
    exact result_sendEmpty ((Client.isHttp_repoUrl _ _ _).trans hbase) h

end ReachedFor

/-! ## One answer -/

/-- What an answer says of a branch, to a look for it and to its deletion. -/
structure SaysOfBranch (r : Response) (seen : Except ForgeError Bool)
    (deleted : Except ForgeError Unit) : Prop where
  seen_iff : seen = .ok true ↔ r.isSuccess = true
  deleted_iff : deleted = .ok () ↔ r.isSuccess = true
  missing_iff : seen = .ok false ↔ FailsMissing deleted
  ignored_iff : ForgeError.ignoreNotFound deleted = .ok none ↔ FailsMissing deleted
  otherwise : ¬ r.isSuccess = true → ¬ FailsMissing deleted →
    ∃ e e', seen = .error e ∧ deleted = .error e' ∧ e.kind = e'.kind

theorem ignoreNotFound_eq_none_iff {result : Except ForgeError Unit} :
    ForgeError.ignoreNotFound result = .ok none ↔ FailsMissing result := by
  cases result with
  | ok _ => simp [ForgeError.ignoreNotFound, FailsMissing]
  | error e => simp [ForgeError.ignoreNotFound, FailsMissing, ForgeError.isNotFound]

theorem Response.verdict_eq_ok_iff : r.verdict context = .ok () ↔ r.isSuccess = true := by
  unfold verdict
  by_cases hr : r.isSuccess = true
  · simp [hr]
  · simp [hr]

/-- The text that an error begins with does not decide what is missing. -/
theorem Response.missing_verdict (context context' : String) :
    FailsMissing (r.verdict context) ↔ FailsMissing (r.verdict context') := by
  have hkind : (r.failure context).kind = (r.failure context').kind := Failure.kind_classify _ _ _ _
  unfold verdict FailsMissing
  split
  · simp
  · simp [hkind]

theorem Response.saysOfBranch (context context' : String) (r : Response) :
    SaysOfBranch r (Http.there (r.verdict context)) (r.verdict context') where
  seen_iff := Http.there_eq_true_iff.trans verdict_eq_ok_iff
  deleted_iff := verdict_eq_ok_iff
  missing_iff := Http.there_eq_false_iff.trans (missing_verdict context context')
  ignored_iff := ignoreNotFound_eq_none_iff
  otherwise hfail hmissing := by
    have hverdict : ∀ context, r.verdict context = .error (r.failure context) :=
      fun context => if_neg hfail
    have hkind : (r.failure context).kind = (r.failure context').kind :=
      Failure.kind_classify _ _ _ _
    refine ⟨r.failure context, r.failure context', ?_, hverdict context', hkind⟩
    rw [← missing_verdict context context', hverdict] at hmissing
    have hfound : ¬ (r.failure context).isNotFound = true := fun h =>
      hmissing ⟨_, rfl, beq_iff_eq.mp h⟩
    rw [hverdict]
    exact if_neg hfound

/-- To the same answer two forges for one organization say the same, and what the look says goes with
what the deletion says. -/
theorem branch_outcomes_agree {f' : Forge Exchange} {x' : Exchange} (hf : ReachedFor org f)
    (hf' : ReachedFor org f') (hx : x.Delivers r) (hx' : x'.Delivers r) (repo branch : String) :
    (f.branchExists repo branch x).result = (f'.branchExists repo branch x').result ∧
    (f.deleteBranch repo branch x).result = (f'.deleteBranch repo branch x').result ∧
    SaysOfBranch r (f.branchExists repo branch x).result (f.deleteBranch repo branch x).result := by
  rw [hf.branchExists_result hx, hf'.branchExists_result hx', hf.deleteBranch_result hx,
    hf'.deleteBranch_result hx']
  exact ⟨rfl, rfl, r.saysOfBranch _ _⟩

/-- An answer that only says in words that the branch is not there. -/
def wordedAnswer : Response :=
  ⟨422, [], some (Text.Utf8.encode "\x7b\"message\":\"Reference does not exist\"\x7d")⟩

theorem branch_outcomes_agree_worded :
    (publicGitHub.forge.branchExists "r" "b" ⟨[⟨5, some wordedAnswer⟩], #[]⟩).result =
      (publicGitLab.forge.branchExists "r" "b" ⟨[⟨0, some wordedAnswer⟩], #[]⟩).result ∧
    (publicGitHub.forge.deleteBranch "r" "b" ⟨[⟨5, some wordedAnswer⟩], #[]⟩).result =
      (publicGitLab.forge.deleteBranch "r" "b" ⟨[⟨0, some wordedAnswer⟩], #[]⟩).result ∧
    SaysOfBranch wordedAnswer
      (publicGitHub.forge.branchExists "r" "b" ⟨[⟨5, some wordedAnswer⟩], #[]⟩).result
      (publicGitHub.forge.deleteBranch "r" "b" ⟨[⟨5, some wordedAnswer⟩], #[]⟩).result :=
  branch_outcomes_agree (.gitHub (g := publicGitHub) rfl (by decide))
    (.gitLab (g := publicGitLab) rfl (by decide)) ⟨by decide, rfl⟩ ⟨by decide, rfl⟩ "r" "b"

end ForgeChores
