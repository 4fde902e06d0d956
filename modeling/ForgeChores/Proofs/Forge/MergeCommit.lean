import ForgeChores.Proofs.Forge.Connected
import ForgeChores.Proofs.Http.Exchange
import ForgeChores.Proofs.Wait.Polling

/-!
# ForgeChores.Proofs.Forge.MergeCommit

Whether a merged pull request names its merge commit.

* Forgejo and GitLab: always. Forgejo reads the pull request again and fails without a commit;
  GitLab waits for one (`Forgejo.isMerged_of_merge`, `GitLab.isMerged_of_merge`).
* GitHub: unless neither the answer to the merge nor the pull request read after it names one.
  `GitHub.MergeUnnamed` is that case, and then the pull request comes back without a commit.
-/

namespace ForgeChores

theorem PullRequest.isMerged_iff {p : PullRequest} : p.isMerged = true ↔ p.mergeCommitSha ≠ "" := by
  simp [isMerged]

/-! ## GitHub -/

namespace GitHub

variable {g : GitHub} {name : String} {number : Nat} {x : Exchange}

/-- The request that merges a pull request. -/
def mergeRequest (g : GitHub) (r : RepoPath) (number : Nat) : Request :=
  .put (g.pullUrl r number ["merge"]) (Json.object [("merge_method", .string "merge")])

/-- What a merge gives back of the pull request read after it and the commit it was answered. -/
def mergedPull (sha : Option String) (found : PullRequest) : PullRequest :=
  if found.isMerged then found else { found with mergeCommitSha := sha.getD "" }

/-- Neither of the two answers of a merge names a commit. -/
def MergeUnnamed (x : Exchange) : Prop :=
  ∃ merge fetch rest sha found, x.pending = merge :: fetch :: rest ∧
    merge.read? mergeResult = some sha ∧ (sha = none ∨ sha = some "") ∧
    fetch.read? pullRequest = some found ∧ found.mergeCommitSha = ""

theorem mergedPull_unnamed_iff {sha : Option String} {found : PullRequest} :
    (mergedPull sha found).mergeCommitSha = "" ↔
      (sha = none ∨ sha = some "") ∧ found.mergeCommitSha = "" := by
  unfold mergedPull
  by_cases h : found.mergeCommitSha = ""
  · have hopen : found.isMerged = false := by simp [PullRequest.isMerged, h]
    cases sha with
    | none => simp [hopen, h]
    | some sha => simp [hopen, h]
  · have hmerged : found.isMerged = true := PullRequest.isMerged_iff.mpr h
    simp [hmerged, h]

/-- A merge that fails is not made up for, whatever the update of the branch is answered. -/
theorem mergePullRequest_of_error {e : ForgeError}
    (h : (Task.ofAttempt (Http.sendJson (Context.mergePull number (g.repo name).fullPath)
      mergeResult (g.mergeRequest (g.repo name) number)) x).result = .error e) :
    (Task.ofAttempt (g.mergePullRequest name number) x).result = .error e := by
  unfold mergePullRequest
  unfold mergeRequest at h
  rw [Task.ofAttempt_bind, Task.ofAttempt_caught, Task.caught_bind]
  simp only [h]
  split
  · rw [Task.ofAttempt_bind, Task.ofAttempt_caught, Task.caught_bind]
    rfl
  · rfl

theorem mergePullRequest_of_ok {sha : Option String} {pull : PullRequest}
    (h : (Task.ofAttempt (Http.sendJson (Context.mergePull number (g.repo name).fullPath)
      mergeResult (g.mergeRequest (g.repo name) number)) x).result = .ok sha) :
    (Task.ofAttempt (g.mergePullRequest name number) x).result = .ok pull ↔
      ∃ found, (Task.ofAttempt (g.getPullRequest (g.repo name) number)
          (Task.ofAttempt (Http.sendJson (Context.mergePull number (g.repo name).fullPath)
            mergeResult (g.mergeRequest (g.repo name) number)) x).state).result = .ok found ∧
        pull = mergedPull sha found := by
  unfold mergePullRequest
  unfold mergeRequest at h ⊢
  rw [Task.ofAttempt_bind, Task.ofAttempt_caught, Task.caught_bind]
  simp only [h]
  rw [Task.ofAttempt_bind, Task.result_bind_eq_ok]
  simp only [Task.ofAttempt_pure, Task.result_pure, Except.ok.injEq, mergedPull, eq_comm]

/-- A merge succeeds when both its answers can be read. -/
theorem mergePullRequest_ok_iff {pull : PullRequest} :
    (Task.ofAttempt (g.mergePullRequest name number) x).result = .ok pull ↔
      g.api.base.isHttp = true ∧
      ∃ merge fetch rest sha found, x.pending = merge :: fetch :: rest ∧
        merge.read? mergeResult = some sha ∧ fetch.read? pullRequest = some found ∧
        pull = mergedPull sha found := by
  have hurl : ∀ rest, (g.pullUrl (g.repo name) number rest).isHttp = g.api.base.isHttp :=
    fun _ => Client.isHttp_repoUrl _ _ _
  constructor
  · intro h
    cases hmerge : (Task.ofAttempt (Http.sendJson
        (Context.mergePull number (g.repo name).fullPath) mergeResult
        (g.mergeRequest (g.repo name) number)) x).result with
    | error e => rw [mergePullRequest_of_error hmerge] at h; cases h
    | ok sha =>
      obtain ⟨found, hfetch, rfl⟩ := (mergePullRequest_of_ok hmerge).mp h
      obtain ⟨hhttp, merge, rest, hp, hread⟩ := Http.sendJson_ok_iff.mp hmerge
      rw [Http.state_sendJson_of_ok hmerge hp] at hfetch
      obtain ⟨-, fetch, rest', hp', hread'⟩ := Http.sendJson_ok_iff.mp hfetch
      obtain rfl : rest = fetch :: rest' := hp'
      exact ⟨by rw [← hurl]; exact hhttp, merge, fetch, rest', sha, found, hp, hread, hread', rfl⟩
  · rintro ⟨hhttp, merge, fetch, rest, sha, found, hp, hread, hread', rfl⟩
    have hmerge : (Task.ofAttempt (Http.sendJson
        (Context.mergePull number (g.repo name).fullPath) mergeResult
        (g.mergeRequest (g.repo name) number)) x).result = .ok sha :=
      Http.sendJson_ok_iff.mpr ⟨(hurl _).trans hhttp, merge, _, hp, hread⟩
    refine (mergePullRequest_of_ok hmerge).mpr ⟨found, ?_, rfl⟩
    rw [Http.state_sendJson_of_ok hmerge hp]
    exact Http.sendJson_ok_iff.mpr ⟨(hurl _).trans hhttp, fetch, rest, rfl, hread'⟩

/-- A merge without a commit comes of answers that name none, and always does. -/
theorem mergePullRequest_unnamed_iff :
    (∃ pull, (Task.ofAttempt (g.mergePullRequest name number) x).result = .ok pull ∧
      pull.mergeCommitSha = "") ↔ g.api.base.isHttp = true ∧ MergeUnnamed x := by
  constructor
  · rintro ⟨pull, h, hempty⟩
    obtain ⟨hhttp, merge, fetch, rest, sha, found, hp, hread, hread', rfl⟩ :=
      mergePullRequest_ok_iff.mp h
    obtain ⟨hsha, hfound⟩ := mergedPull_unnamed_iff.mp hempty
    exact ⟨hhttp, merge, fetch, rest, sha, found, hp, hread, hsha, hread', hfound⟩
  · rintro ⟨hhttp, merge, fetch, rest, sha, found, hp, hread, hsha, hread', hfound⟩
    exact ⟨mergedPull sha found, mergePullRequest_ok_iff.mpr
      ⟨hhttp, merge, fetch, rest, sha, found, hp, hread, hread', rfl⟩,
      mergedPull_unnamed_iff.mpr ⟨hsha, hfound⟩⟩

end GitHub

/-! ## GitLab -/

namespace GitLab

/-- A merge that does not name its commit waits for one. -/
theorem isMerged_of_merge {g : GitLab} {repo : String} {number : Nat} {x : Exchange}
    {pull : PullRequest} (h : (g.mergePullRequest repo number x).result = .ok pull) :
    pull.isMerged = true := by
  unfold mergePullRequest at h
  obtain ⟨merged, -, h⟩ := Task.result_bind_eq_ok.mp h
  split at h
  · rename_i hmerged
    cases h
    exact hmerged
  · have hpoll := Task.result_mapError_eq_ok.mp h
    obtain ⟨limit, s, hcheck⟩ := Wait.check_of_poll_ok hpoll
    obtain ⟨found, -, hfound⟩ := Attempt.result_bind_eq_done.mp hcheck
    rw [Attempt.result_pure] at hfound
    split at hfound
    · rename_i hmerged
      cases hfound
      exact hmerged
    · cases hfound

end GitLab

/-! ## Forgejo -/

namespace Forgejo

/-- A pull request that names no commit after its merge is a failure. -/
theorem isMerged_of_merge {g : Forgejo} {name : String} {number : Nat} {x : Exchange}
    {pull : PullRequest}
    (h : (Task.ofAttempt (g.mergePullRequest name number) x).result = .ok pull) :
    pull.isMerged = true := by
  unfold mergePullRequest at h
  rw [Task.ofAttempt_bind] at h
  obtain ⟨-, -, h⟩ := Task.result_bind_eq_ok.mp h
  rw [Task.ofAttempt_bind] at h
  obtain ⟨found, -, h⟩ := Task.result_bind_eq_ok.mp h
  split at h
  · rename_i hmerged
    cases h
    exact hmerged
  · cases h

end Forgejo

/-! ## All three -/

/-- A successful merge names its commit: on GitHub exactly if one of the two answers of the server
does, on GitLab and Forgejo always. -/
theorem mergePullRequest_names_commit (x : Exchange) (repo : String) (number : Nat) :
    (∀ g : GitHub,
      (∀ pull, (g.forge.mergePullRequest repo number x).result = .ok pull →
        pull.mergeCommitSha ≠ "") ↔ ¬ (g.api.base.isHttp = true ∧ GitHub.MergeUnnamed x)) ∧
    (∀ (g : GitLab) (pull : PullRequest),
      (g.forge.mergePullRequest repo number x).result = .ok pull → pull.mergeCommitSha ≠ "") ∧
    ∀ (g : Forgejo) (pull : PullRequest),
      (g.forge.mergePullRequest repo number x).result = .ok pull → pull.mergeCommitSha ≠ "" := by
  refine ⟨fun g => ?_, fun g pull h => ?_, fun g pull h => ?_⟩
  · rw [← GitHub.mergePullRequest_unnamed_iff (g := g) (x := x), not_exists]
    exact forall_congr' fun pull => not_and.symm
  · exact PullRequest.isMerged_iff.mp (GitLab.isMerged_of_merge h)
  · exact PullRequest.isMerged_iff.mp (Forgejo.isMerged_of_merge h)

/-- A server that merges but names no commit: neither in its answer to the merge nor in the pull
request after it. -/
def unnamedMerge : List Reply :=
  [.prompt [] "\x7b\"merged\":true\x7d",
    .prompt [] ("\x7b\"number\":7,\"head\":\x7b\"ref\":\"f\",\"sha\":\"a\"\x7d," ++
      "\"base\":\x7b\"ref\":\"m\",\"sha\":\"b\"\x7d," ++
      "\"merged_at\":null,\"merge_commit_sha\":null\x7d")]

/-- There the merge succeeds without a commit. -/
theorem mergePullRequest_without_commit :
    ∃ pull, (publicGitHub.forge.mergePullRequest "o/r" 7 ⟨unnamedMerge, #[]⟩).result = .ok pull ∧
      pull.mergeCommitSha = "" := by
  have hmerge : (Reply.prompt [] "\x7b\"merged\":true\x7d").read? GitHub.mergeResult =
      some none := by decide +kernel
  refine GitHub.mergePullRequest_unnamed_iff.mpr ⟨by decide, _, _, [], none,
    ⟨7, "f", "m", "a", ""⟩, rfl, hmerge, Or.inl rfl, ?_, rfl⟩
  decide +kernel

end ForgeChores
