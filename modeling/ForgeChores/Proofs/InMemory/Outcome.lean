import ForgeChores.Forge.InMemory
import ForgeChores.Proofs.Activity
import ForgeChores.Proofs.Forge.Calls
import ForgeChores.Proofs.Table
import ForgeChores.Proofs.Wait.Leading

/-!
# ForgeChores.Proofs.InMemory.Outcome

What one call does to the repositories in memory.

`Edit` says what a call that succeeds makes of the repository it names, with all that was checked
before, and `Outcome` what comes of a call: it fails and leaves the repositories alone, edits one,
forks one or deletes one. Only the wait for a status is more than one operation; it uses up reports
and does nothing else, however it ends. `outcome` covers every call; what follows in other modules
is by cases on it and never unfolds an operation, except to say what a single one answers, which is
by `result_eq_ok_iff`.
-/

namespace ForgeChores
namespace InMemory

variable {α : Type} {s : InMemory} {sha repo context : String}

/-! ## One operation -/

/-- What comes of an operation: it is refused, its change fails, or it is done. -/
inductive Performed (op : Operation)
    (change : String → Table String Repository →
      Except ForgeError (α × Table String Repository)) (s : InMemory) :
    Except ForgeError α × InMemory → Prop where
  | refused {e : ForgeError} : s.failureOf op = some e →
      Performed op change s (.error e, { s with log := s.log.push op })
  | failed {e : ForgeError} : s.failureOf op = none →
      change (commitHash s.nextCommit) s.repos = .error e →
      Performed op change s (.error e, InMemory.advance { s with log := s.log.push op } op)
  | done {a : α} {repos : Table String Repository} : s.failureOf op = none →
      change (commitHash s.nextCommit) s.repos = .ok (a, repos) →
      Performed op change s
        (.ok a, { InMemory.advance { s with log := s.log.push op } op with repos := repos })

theorem performed (op : Operation)
    (change : String → Table String Repository →
      Except ForgeError (α × Table String Repository)) (s : InMemory) :
    Performed op change s (perform op change s) := by
  unfold perform
  cases hfailure : s.failureOf op with
  | some e => exact .refused hfailure
  | none =>
    cases hchange : change (commitHash s.nextCommit) s.repos with
    | error e => exact .failed hfailure hchange
    | ok done => exact .done hfailure hchange

theorem advance_eq (s : InMemory) (op : Operation) :
    s.advance op = { s with nextCommit := s.nextCommit + op.makesCommit.toNat } := by
  unfold advance
  cases op.makesCommit <;> rfl

theorem repos_advance (s : InMemory) (op : Operation) : (s.advance op).repos = s.repos := by
  rw [advance_eq]

theorem within_eq_ok {change : Repository → Except ForgeError (α × Repository)}
    {repos repos' : Table String Repository} {a : α}
    (h : within context repo change repos = .ok (a, repos')) :
    ∃ r r', repos.get? (key repo) = some r ∧ change r = .ok (a, r') ∧
      repos' = repos.insert (key repo) r' := by
  unfold within at h
  cases hget : repos.get? (key repo) with
  | none =>
    rw [hget] at h
    cases h
  | some r =>
    rw [hget] at h
    obtain ⟨⟨b, r'⟩, hchange, hdone⟩ := except_bind_eq_ok.mp h
    cases hdone
    exact ⟨r, r', rfl, hchange, rfl⟩

theorem ofAttempt_attempt (op : Operation)
    (change : String → Table String Repository →
      Except ForgeError (α × Table String Repository)) (s : InMemory) :
    Task.ofAttempt (attempt op change) s =
      ⟨(perform op change s).1, 0, (perform op change s).2⟩ := Task.ofAttempt_step _ s

theorem done_of_result {op : Operation} {a : α}
    {change : String → Repository → Except ForgeError (α × Repository)}
    (h : (Task.ofAttempt (attempt op fun sha => within context repo (change sha)) s).result = .ok a) :
    s.failureOf op = none ∧ ∃ r r', s.get? repo = some r ∧
      change (commitHash s.nextCommit) r = .ok (a, r') ∧
      (Task.ofAttempt (attempt op fun sha => within context repo (change sha)) s).state.repos =
        s.repos.insert (key repo) r' := by
  rw [ofAttempt_attempt] at h ⊢
  have hperformed := performed op (fun sha => within context repo (change sha)) s
  generalize perform op (fun sha => within context repo (change sha)) s = after at h hperformed ⊢
  cases hperformed with
  | refused _ => cases h
  | failed _ _ => cases h
  | done hfailure hchange =>
    cases h
    obtain ⟨r, r', hget, hr', rfl⟩ := within_eq_ok hchange
    exact ⟨hfailure, r, r', hget, hr', rfl⟩

/-- An operation on one repository answers what its change gives, unless it is set to fail or the
repository is missing. -/
theorem result_eq_ok_iff {op : Operation} {a : α}
    {change : String → Repository → Except ForgeError (α × Repository)} :
    (Task.ofAttempt (attempt op fun sha => within context repo (change sha)) s).result = .ok a ↔
      s.failureOf op = none ∧ ∃ r r', s.get? repo = some r ∧
        change (commitHash s.nextCommit) r = .ok (a, r') := by
  constructor
  · intro h
    obtain ⟨hfailure, r, r', hget, hchange, -⟩ := done_of_result h
    exact ⟨hfailure, r, r', hget, hchange⟩
  · rintro ⟨hfailure, r, r', hget, hchange⟩
    have hthere : s.repos.get? (key repo) = some r := hget
    rw [ofAttempt_attempt]
    simp only [perform, hfailure, within, hthere, hchange]
    rfl

/-! ## What a call makes of a repository -/

/-- What `call`, answered with `answer`, makes of the repository `r` that it names by `repo`, if
`sha` is the hash of the next commit. -/
inductive Edit (sha repo : String) (r : Repository) :
    (call : Forge.Call) → (answer : Forge.Answer) → Repository → Prop where
  | createBranch {base revision branch tip : String} : r.branches.get? base = some tip →
      r.branches.contains branch = false →
      Edit sha repo r (.createBranch repo base revision branch) .nothing
        { r with branches := r.branches.insert branch (if revision = "" then tip else revision) }
  | deleteBranch {branch : String} : r.branches.contains branch = true →
      Edit sha repo r (.deleteBranch repo branch) .nothing
        { r with branches := r.branches.erase branch }
  | branchExists {branch : String} :
      Edit sha repo r (.branchExists repo branch) (.flag (r.branches.contains branch)) r
  | listPullRequests : Edit sha repo r (.listPullRequests repo) (.pulls r.openPulls) r
  | createPull {title body head base tip : String} : r.branches.get? head = some tip →
      r.branches.contains base = true → (∀ pull ∈ r.openPulls, pull.sourceBranch ≠ head) →
      Edit sha repo r (.createPullRequest repo title body head base)
        (.pull ⟨r.nextPull, head, base, tip, ""⟩)
        { r with
          nextPull := r.nextPull + 1
          pulls := r.pulls.insert r.nextPull ⟨⟨r.nextPull, head, base, tip, ""⟩, true⟩ }
  | merge {number : Nat} {pull : PullRequest} : r.pulls.get? number = some ⟨pull, true⟩ →
      Edit sha repo r (.mergePullRequest repo number) (.pull { pull with mergeCommitSha := sha })
        { r with
          pulls := r.pulls.insert number ⟨{ pull with mergeCommitSha := sha }, false⟩
          branches := r.branches.insert pull.targetBranch sha }
  | close {number : Nat} {p : Pull} : r.pulls.get? number = some p →
      Edit sha repo r (.closePullRequest repo number) .nothing
        { r with
          pulls := r.pulls.insert number { p with isOpen := false }
          branches := r.branches.erase p.pull.sourceBranch }
  | createFile {path content branch : String} : r.branches.contains branch = true →
      r.files.contains (branch, path) = false →
      Edit sha repo r (.createFile repo path content branch) (.file ⟨sha, content⟩)
        { r with
          files := r.files.insert (branch, path) ⟨sha, content⟩
          branches := r.branches.insert branch sha }
  | getFile {path branch : String} {file : RepositoryFile} :
      r.files.get? (branch, path) = some file →
      Edit sha repo r (.getFile repo path branch) (.file file) r
  | cleanupWebhooks {host : String} : host ≠ "" →
      Edit sha repo r (.cleanupWebhooks repo host) .nothing (r.removeHook host)
  | listCommitStatuses {commit : String} :
      Edit sha repo r (.listCommitStatuses repo commit) (.statuses (r.nextReport commit).1)
        (r.nextReport commit).2

namespace Repository

variable {r r' : Repository}

theorem tip_eq_ok_iff {branch tip : String} :
    r.tip context branch = .ok tip ↔ r.branches.get? branch = some tip := by
  unfold Repository.tip
  cases r.branches.get? branch <;> simp

theorem edit_of_createBranch {base revision branch : String} {u : Unit}
    (h : r.createBranch context base revision branch = .ok (u, r')) :
    Edit sha repo r (.createBranch repo base revision branch) .nothing r' := by
  obtain ⟨tip, htip, h⟩ := except_bind_eq_ok.mp h
  split at h
  · cases h
  · rename_i hnew
    cases h
    exact .createBranch (tip_eq_ok_iff.mp htip) (Bool.eq_false_iff.mpr hnew)

theorem edit_of_deleteBranch {branch : String} {u : Unit}
    (h : r.deleteBranch context branch = .ok (u, r')) :
    Edit sha repo r (.deleteBranch repo branch) .nothing r' := by
  obtain ⟨tip, htip, h⟩ := except_bind_eq_ok.mp h
  cases h
  exact .deleteBranch (Table.contains_eq_true_iff.mpr ⟨tip, tip_eq_ok_iff.mp htip⟩)

theorem edit_of_createPull {title body head base : String} {pull : PullRequest}
    (h : r.createPull context head base = .ok (pull, r')) :
    Edit sha repo r (.createPullRequest repo title body head base) (.pull pull) r' := by
  obtain ⟨tip, htip, h⟩ := except_bind_eq_ok.mp h
  obtain ⟨baseTip, hbase, h⟩ := except_bind_eq_ok.mp h
  split at h
  · cases h
  · rename_i hany
    cases h
    refine .createPull (tip_eq_ok_iff.mp htip)
      (Table.contains_eq_true_iff.mpr ⟨baseTip, tip_eq_ok_iff.mp hbase⟩) ?_
    simpa using hany

theorem edit_of_merge {number : Nat} {pull : PullRequest}
    (h : r.merge context number sha = .ok (pull, r')) :
    Edit sha repo r (.mergePullRequest repo number) (.pull pull) r' := by
  unfold merge at h
  split at h
  · cases h
  · rename_i p hp
    obtain ⟨stored, isOpen⟩ := p
    cases isOpen with
    | false => cases h
    | true =>
      cases h
      exact .merge hp

theorem edit_of_close {number : Nat} {u : Unit} (h : r.close context number = .ok (u, r')) :
    Edit sha repo r (.closePullRequest repo number) .nothing r' := by
  unfold close at h
  split at h
  · cases h
  · rename_i p hp
    cases h
    exact .close hp

theorem edit_of_createFile {path content branch : String} {file : RepositoryFile}
    (h : r.createFile context path content branch sha = .ok (file, r')) :
    Edit sha repo r (.createFile repo path content branch) (.file file) r' := by
  obtain ⟨tip, htip, h⟩ := except_bind_eq_ok.mp h
  split at h
  · cases h
  · rename_i hnew
    cases h
    exact .createFile (Table.contains_eq_true_iff.mpr ⟨tip, tip_eq_ok_iff.mp htip⟩)
      (Bool.eq_false_iff.mpr hnew)

theorem edit_of_getFile {path branch : String} {file : RepositoryFile}
    (h : r.getFile context path branch = .ok (file, r')) :
    Edit sha repo r (.getFile repo path branch) (.file file) r' := by
  unfold getFile at h
  split at h
  · rename_i found hfound
    cases h
    exact .getFile hfound
  · cases h

end Repository

/-! ## What comes of a call -/

/-- At most the reports of the repository `repo` are others. -/
def UsesReports (repo : String) (repos repos' : Table String Repository) : Prop :=
  repos' = repos ∨ ∃ r reports, repos.get? (key repo) = some r ∧
    repos' = repos.insert (key repo) { r with reports := reports }

theorem UsesReports.trans {repos repos' repos'' : Table String Repository}
    (h : UsesReports repo repos repos') (h' : UsesReports repo repos' repos'') :
    UsesReports repo repos repos'' := by
  rcases h with rfl | ⟨r, reports, hr, rfl⟩
  · exact h'
  · rcases h' with rfl | ⟨r', reports', hr', rfl⟩
    · exact .inr ⟨r, reports, hr, rfl⟩
    · rw [Table.get?_insert, if_pos rfl] at hr'
      cases hr'
      exact .inr ⟨r, reports', hr, Table.insert_insert _ _ _ _⟩

theorem nextReport_snd (r : Repository) (commit : String) :
    ∃ reports, (r.nextReport commit).2 = { r with reports := reports } := by
  unfold Repository.nextReport
  split
  · exact ⟨r.reports, rfl⟩
  · exact ⟨r.reports, rfl⟩
  · exact ⟨r.reports, rfl⟩
  · exact ⟨_, rfl⟩

section NextReport

variable (r : Repository) (commit : String)

@[simp] theorem branches_nextReport : (r.nextReport commit).2.branches = r.branches := by
  obtain ⟨reports, h⟩ := nextReport_snd r commit
  rw [h]

@[simp] theorem pulls_nextReport : (r.nextReport commit).2.pulls = r.pulls := by
  obtain ⟨reports, h⟩ := nextReport_snd r commit
  rw [h]

@[simp] theorem nextPull_nextReport : (r.nextReport commit).2.nextPull = r.nextPull := by
  obtain ⟨reports, h⟩ := nextReport_snd r commit
  rw [h]

@[simp] theorem files_nextReport : (r.nextReport commit).2.files = r.files := by
  obtain ⟨reports, h⟩ := nextReport_snd r commit
  rw [h]

@[simp] theorem hooks_nextReport : (r.nextReport commit).2.hooks = r.hooks := by
  obtain ⟨reports, h⟩ := nextReport_snd r commit
  rw [h]

end NextReport

theorem listCommitStatuses_leads (repo commit : String) :
    (listCommitStatuses repo commit).Leads fun s s' => UsesReports repo s.repos s'.repos := by
  refine Attempt.leads_step fun s => ?_
  generalize hafter : perform _ _ s = after
  have h := performed (.listCommitStatuses (key repo) commit) (fun _ =>
    within ("list statuses for " ++ commit ++ " in " ++ key repo) repo fun r =>
      .ok (r.nextReport commit)) s
  rw [hafter] at h
  cases h with
  | refused _ => exact .inl rfl
  | failed _ _ => exact .inl (repos_advance _ _)
  | done _ hchange =>
    obtain ⟨r, r', hget, hnext, rfl⟩ := within_eq_ok hchange
    obtain ⟨reports, hreports⟩ := nextReport_snd r commit
    have hr' : r' = { r with reports := reports } := by
      rw [← hreports, Except.ok.inj hnext]
    exact .inr ⟨r, reports, hget, by rw [hr']⟩

/-- Where the wait for a status leaves the state goes by what each listing of the statuses does. -/
theorem statusConclusion_leads {R : InMemory → InMemory → Prop} (hrefl : ∀ s, R s s)
    (htrans : ∀ s t u, R s t → R t u → R s u) {commit : String}
    (hreport : (listCommitStatuses repo commit).Leads R) (p : Provider) (name : String)
    (o : WaitOptions) : ((forge p).answer (.statusConclusion repo commit name o)).Leads R := by
  intro s
  have hwait : ((forge p).statusConclusion repo commit name o).Leads R :=
    (Wait.forStatus_leads hrefl htrans hreport).mapError
  show R s (((forge p).statusConclusion repo commit name o >>=
    fun a => pure (Forge.Answer.state a)) s).state
  rw [Task.bind_pure]
  exact hwait s

/-- What each listing of the statuses keeps, the wait for a status keeps. -/
theorem statusConclusion_keeps {β : Type} {f : InMemory → β} {commit : String}
    (hreport : (listCommitStatuses repo commit).Leads fun s s' => f s' = f s) (p : Provider)
    (name : String) (o : WaitOptions) (s : InMemory) :
    f ((forge p).answer (.statusConclusion repo commit name o) s).state = f s :=
  statusConclusion_leads (R := fun s s' => f s' = f s) (fun _ => rfl)
    (fun _ _ _ h h' => h'.trans h) hreport p name o s

/-- What comes of a call and what becomes of the repositories. -/
inductive Outcome (s : InMemory) :
    Forge.Call → Except ForgeError Forge.Answer → Table String Repository → Prop where
  | failed {call : Forge.Call} {e : ForgeError} : Outcome s call (.error e) s.repos
  | edited {repo : String} {call : Forge.Call} {answer : Forge.Answer} {r r' : Repository} :
      s.get? repo = some r → Edit (commitHash s.nextCommit) repo r call answer r' →
      Outcome s call (.ok answer) (s.repos.insert (key repo) r')
  | forked {source target : String} {r : Repository} : s.get? source = some r →
      s.get? target = none →
      Outcome s (.forkRepository source target) (.ok .nothing)
        ((s.repos.insert (key source) r).insert (key target) r.fork)
  | deleted {repo : String} :
      Outcome s (.deleteRepository repo) (.ok (.flag (s.repos.contains (key repo))))
        (s.repos.erase (key repo))
  | waited {repo commit name : String} {o : WaitOptions}
      {result : Except ForgeError Forge.Answer} {repos : Table String Repository} :
      UsesReports repo s.repos repos →
      Outcome s (.statusConclusion repo commit name o) result repos

theorem outcome_of_attempt {call : Forge.Call} {op : Operation}
    {change : String → Table String Repository →
      Except ForgeError (α × Table String Repository)} {toAnswer : α → Forge.Answer}
    (h : ∀ a repos, change (commitHash s.nextCommit) s.repos = .ok (a, repos) →
      Outcome s call (.ok (toAnswer a)) repos) :
    Outcome s call ((Task.ofAttempt (attempt op change) >>= fun a => pure (toAnswer a)) s).result
      ((Task.ofAttempt (attempt op change) >>= fun a => pure (toAnswer a)) s).state.repos := by
  rw [Task.bind_pure, ofAttempt_attempt]
  simp only
  generalize hafter : perform op change s = after
  have hperformed := performed op change s
  rw [hafter] at hperformed
  cases hperformed with
  | refused _ => exact .failed
  | failed _ _ =>
    simp only [repos_advance]
    exact .failed
  | done _ hchange => exact h _ _ hchange

theorem outcome_of_within {call : Forge.Call} {op : Operation}
    {change : String → Repository → Except ForgeError (α × Repository)}
    {toAnswer : α → Forge.Answer}
    (h : ∀ r a r', change (commitHash s.nextCommit) r = .ok (a, r') →
      Edit (commitHash s.nextCommit) repo r call (toAnswer a) r') :
    Outcome s call
      ((Task.ofAttempt (attempt op fun sha => within context repo (change sha)) >>=
        fun a => pure (toAnswer a)) s).result
      ((Task.ofAttempt (attempt op fun sha => within context repo (change sha)) >>=
        fun a => pure (toAnswer a)) s).state.repos := by
  refine outcome_of_attempt fun a repos hchange => ?_
  obtain ⟨r, r', hget, hr', rfl⟩ := within_eq_ok hchange
  exact .edited hget (h r a r' hr')

theorem outcome (p : Provider) (call : Forge.Call) (s : InMemory) :
    Outcome s call ((forge p).answer call s).result ((forge p).answer call s).state.repos := by
  cases call with
  | createBranch repo base revision branch =>
    exact outcome_of_within fun _ _ _ => Repository.edit_of_createBranch
  | deleteBranch repo branch =>
    exact outcome_of_within fun _ _ _ => Repository.edit_of_deleteBranch
  | branchExists repo branch =>
    refine outcome_of_within fun r a r' h => ?_
    cases h
    exact .branchExists
  | listPullRequests repo =>
    refine outcome_of_within fun r a r' h => ?_
    cases h
    exact .listPullRequests
  | createPullRequest repo title body head base =>
    exact outcome_of_within fun _ _ _ => Repository.edit_of_createPull
  | mergePullRequest repo number => exact outcome_of_within fun _ _ _ => Repository.edit_of_merge
  | closePullRequest repo number => exact outcome_of_within fun _ _ _ => Repository.edit_of_close
  | createFile repo path content branch =>
    exact outcome_of_within fun _ _ _ => Repository.edit_of_createFile
  | getFile repo path branch => exact outcome_of_within fun _ _ _ => Repository.edit_of_getFile
  | cleanupWebhooks repo host =>
    refine outcome_of_attempt fun a repos hchange => ?_
    split at hchange
    · cases hchange
    · rename_i hhost
      obtain ⟨r, r', hget, hr', rfl⟩ := within_eq_ok hchange
      cases hr'
      exact .edited hget (.cleanupWebhooks hhost)
  | forkRepository source target =>
    refine outcome_of_attempt fun a repos hchange => ?_
    split at hchange
    · cases hchange
    · rename_i hnew
      obtain ⟨⟨fork, repos'⟩, hwithin, hdone⟩ := except_bind_eq_ok.mp hchange
      obtain ⟨r, r', hget, hr', rfl⟩ := within_eq_ok hwithin
      cases hr'
      cases hdone
      exact .forked hget (Table.contains_eq_false_iff.mp (Bool.eq_false_iff.mpr hnew))
  | deleteRepository repo =>
    refine outcome_of_attempt fun a repos hchange => ?_
    cases hchange
    exact .deleted
  | listCommitStatuses repo commit =>
    refine outcome_of_within fun r a r' h => ?_
    have hnext : Edit (commitHash s.nextCommit) repo r (.listCommitStatuses repo commit)
        (.statuses (r.nextReport commit).1) (r.nextReport commit).2 := .listCommitStatuses
    rw [Except.ok.inj h] at hnext
    exact hnext
  | statusConclusion repo commit name o =>
    exact .waited (statusConclusion_leads (R := fun s s' => UsesReports repo s.repos s'.repos)
      (fun _ => .inl rfl) (fun _ _ _ => UsesReports.trans) (listCommitStatuses_leads repo commit)
      p name o s)

end InMemory
end ForgeChores
