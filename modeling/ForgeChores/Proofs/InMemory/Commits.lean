import ForgeChores.Proofs.InMemory.Failing
import ForgeChores.Proofs.Text.Hex

/-!
# ForgeChores.Proofs.InMemory.Commits

The commits that are made in memory.

Their names are the values of one counter, which no action turns back and none turns by more than one
(`nextCommit_act`). A moment that makes a commit turns it (`Moment.Commits.names`), so of two such
moments the later one meets a higher value. Failed calls and other repositories may come in between;
they leave gaps and no more.

* `pairwise_commits`: no two moments of a run make commits of the same name, as long as the counter
  has no more digits than a name.
* `commits_unique`: so it is for runs of fewer than `2 ^ 64` actions, and each commit is the tip of
  its branch at first.
-/

namespace ForgeChores
namespace InMemory

variable {α : Type} {p : Provider} {s : InMemory} {m : Moment} {repo branch sha : String}
  {call : Forge.Call} {op : Operation}

/-- What is committed to a branch in a moment: the commit that a repository begins with, one for a
file, or a merge. -/
inductive Moment.Commits (p : Provider) (m : Moment) : (repo branch sha : String) → Prop where
  | initial {repo branch sha : String} {branches : List String} :
      m.action = .withRepository repo branches → branch ∈ branches →
      (m.after p).branchTip? repo branch = some sha → Commits p m repo branch sha
  | file {repo path content branch : String} {file : RepositoryFile} :
      m.action = .call (.createFile repo path content branch) →
      ((forge p).answer (.createFile repo path content branch) m.before).result =
        .ok (.file file) →
      Commits p m repo branch file.commitSha
  | merge {repo : String} {number : Nat} {pull : PullRequest} :
      m.action = .call (.mergePullRequest repo number) →
      ((forge p).answer (.mergePullRequest repo number) m.before).result = .ok (.pull pull) →
      Commits p m repo pull.targetBranch pull.mergeCommitSha

/-! ## The counter -/

section Perform

variable (op : Operation) (change : String → Table String Repository →
  Except ForgeError (α × Table String Repository)) (s : InMemory)

theorem nextCommit_perform :
    s.nextCommit ≤ (perform op change s).2.nextCommit ∧
      (perform op change s).2.nextCommit ≤ s.nextCommit + op.makesCommit.toNat := by
  have hperformed := performed op change s
  generalize perform op change s = after at hperformed ⊢
  cases hperformed with
  | refused _ => exact ⟨Nat.le_refl _, Nat.le_add_right _ _⟩
  | failed _ _ =>
    simp only [advance_eq]
    exact ⟨Nat.le_add_right _ _, Nat.le_refl _⟩
  | done _ _ =>
    simp only [advance_eq]
    exact ⟨Nat.le_add_right _ _, Nat.le_refl _⟩

theorem nextCommit_of_done {a : α} (h : (perform op change s).1 = .ok a) :
    (perform op change s).2.nextCommit = s.nextCommit + op.makesCommit.toNat := by
  have hperformed := performed op change s
  generalize perform op change s = after at hperformed h ⊢
  cases hperformed with
  | refused _ => cases h
  | failed _ _ => cases h
  | done _ _ => simp only [advance_eq]

end Perform

theorem nextCommit_statusConclusion (p : Provider) (s : InMemory) (repo commit name : String)
    (o : WaitOptions) :
    ((forge p).answer (.statusConclusion repo commit name o) s).state.nextCommit =
      s.nextCommit := by
  have hreport : (listCommitStatuses repo commit).Leads
      fun s s' => s'.nextCommit = s.nextCommit := by
    refine Attempt.leads_step fun s => ?_
    obtain ⟨hle, hge⟩ := nextCommit_perform (.listCommitStatuses (key repo) commit) (fun _ =>
      within ("list statuses for " ++ commit ++ " in " ++ key repo) repo fun r =>
        .ok (r.nextReport commit)) s
    exact Nat.le_antisymm hge hle
  exact statusConclusion_keeps hreport p name o s

theorem nextCommit_answer (p : Provider) (s : InMemory) (call : Forge.Call) :
    s.nextCommit ≤ ((forge p).answer call s).state.nextCommit ∧
      ((forge p).answer call s).state.nextCommit ≤ s.nextCommit + 1 := by
  by_cases hop : isOperation call = true
  · obtain ⟨α, change, toAnswer, hanswer⟩ := answer_of_operation p s hop
    rw [hanswer]
    obtain ⟨hle, hge⟩ := nextCommit_perform (operationOf call) change s
    exact ⟨hle, Nat.le_trans hge (Nat.add_le_add_left (Bool.toNat_le _) _)⟩
  · cases call with
    | statusConclusion repo commit name o =>
      rw [nextCommit_statusConclusion]
      exact ⟨Nat.le_refl _, Nat.le_succ _⟩
    | _ => exact absurd rfl hop

theorem nextCommit_of_ok {answer : Forge.Answer} (hop : isOperation call = true)
    (hmakes : (operationOf call).makesCommit = true)
    (hok : ((forge p).answer call s).result = .ok answer) :
    ((forge p).answer call s).state.nextCommit = s.nextCommit + 1 := by
  obtain ⟨α, change, toAnswer, hanswer⟩ := answer_of_operation p s hop
  rw [hanswer] at hok ⊢
  simp only at hok ⊢
  cases hdone : (perform (operationOf call) change s).1 with
  | error e =>
    rw [hdone] at hok
    cases hok
  | ok a =>
    rw [nextCommit_of_done _ _ _ hdone, hmakes]
    rfl

theorem nextCommit_act (p : Provider) (s : InMemory) (a : Action) :
    s.nextCommit ≤ (act p s a).nextCommit ∧ (act p s a).nextCommit ≤ s.nextCommit + 1 := by
  cases a with
  | call c => exact nextCommit_answer p s c
  | withRepository repo branches => exact ⟨Nat.le_succ _, Nat.le_refl _⟩
  | scriptStatuses repo commit reports =>
    simp only [act, scriptStatuses]
    split <;> exact ⟨Nat.le_refl _, Nat.le_succ _⟩
  | _ => exact ⟨Nat.le_refl _, Nat.le_succ _⟩

theorem nextCommit_run (p : Provider) (actions : List Action) (s : InMemory) :
    s.nextCommit ≤ (run p actions s).nextCommit ∧
      (run p actions s).nextCommit ≤ s.nextCommit + actions.length := by
  induction actions generalizing s with
  | nil => exact ⟨Nat.le_refl _, Nat.le_refl _⟩
  | cons a rest ih =>
    obtain ⟨hle, hge⟩ := nextCommit_act p s a
    obtain ⟨hle', hge'⟩ := ih (act p s a)
    rw [List.length_cons]
    refine ⟨Nat.le_trans hle hle', Nat.le_trans hge' ?_⟩
    omega

/-- A run of `n` actions meets fewer than `n` values above the one that it begins with. -/
theorem nextCommit_of_mem_trace {actions : List Action} (h : m ∈ trace p actions s) :
    s.nextCommit ≤ m.before.nextCommit ∧
      m.before.nextCommit < s.nextCommit + actions.length := by
  obtain ⟨before, a, after, rfl, rfl⟩ := mem_trace_iff.mp h
  obtain ⟨hle, hge⟩ := nextCommit_run p before s
  refine ⟨hle, Nat.lt_of_le_of_lt hge ?_⟩
  rw [List.length_append, List.length_cons]
  omega

/-! ## What a commit is named and where it is -/

theorem get?_foldl_insert (sha : String) (branches : List String) (t : Table String String)
    (branch : String) :
    (branches.foldl (fun t b => t.insert b sha) t).get? branch =
      if branch ∈ branches then some sha else t.get? branch := by
  induction branches generalizing t with
  | nil => simp
  | cons b rest ih =>
    rw [List.foldl_cons, ih, Table.get?_insert]
    by_cases hrest : branch ∈ rest
    · simp [hrest]
    · by_cases hb : b = branch
      · simp [hb]
      · simp [hrest, hb, Ne.symm hb]

theorem branchTip?_withRepository (s : InMemory) (repo : String) {branches : List String}
    (h : branch ∈ branches) :
    (s.withRepository repo branches).branchTip? repo branch =
      some (commitHash s.nextCommit) := by
  have hmade : (s.withRepository repo branches).get? repo =
      some (.fresh branches (commitHash s.nextCommit)) := by
    simp [get?, withRepository, Repository.fresh]
  unfold branchTip?
  rw [hmade]
  show (Repository.fresh branches (commitHash s.nextCommit)).branches.get? branch = _
  rw [Repository.fresh, get?_foldl_insert, if_pos h]

theorem branchTip?_of_insert {s' : InMemory} {r : Repository}
    (h : s'.repos = s.repos.insert (key repo) r) :
    s'.branchTip? repo branch = r.branches.get? branch := by
  unfold branchTip? get?
  rw [h, Table.get?_insert, if_pos rfl]
  rfl

theorem Edit.commit_of_file {path content : String} {r r' : Repository} {file : RepositoryFile}
    (h : Edit sha repo r (.createFile repo path content branch) (.file file) r') :
    file.commitSha = sha ∧ r'.branches.get? branch = some sha := by
  cases h with
  | createFile => exact ⟨rfl, by rw [Table.get?_insert, if_pos rfl]⟩

theorem Edit.commit_of_merge {number : Nat} {r r' : Repository} {pull : PullRequest}
    (h : Edit sha repo r (.mergePullRequest repo number) (.pull pull) r') :
    pull.mergeCommitSha = sha ∧ r'.branches.get? pull.targetBranch = some sha := by
  cases h with
  | merge => exact ⟨rfl, by rw [Table.get?_insert, if_pos rfl]⟩

/-- The next value of the counter names the commit, is used up by it, and the commit becomes the tip
of its branch. -/
theorem Moment.Commits.names (h : m.Commits p repo branch sha) :
    sha = commitHash m.before.nextCommit ∧ m.before.nextCommit < (m.after p).nextCommit ∧
      (m.after p).branchTip? repo branch = some sha := by
  obtain ⟨s, action⟩ := m
  cases h with
  | initial haction hbranch htip =>
    obtain rfl : action = _ := haction
    have hmade := branchTip?_withRepository s repo hbranch
    have hsha : some (commitHash s.nextCommit) = some sha := hmade.symm.trans htip
    exact ⟨(Option.some.inj hsha).symm, Nat.lt_succ_self _, htip⟩
  | file haction hresult =>
    obtain rfl : action = _ := haction
    obtain ⟨r, r', hrepos, hedit⟩ := edited_of_ok rfl hresult
    obtain ⟨hsha, htip⟩ := hedit.commit_of_file
    have hcount := nextCommit_of_ok (p := p) rfl rfl hresult
    refine ⟨hsha, Nat.lt_of_lt_of_eq (Nat.lt_succ_self _) hcount.symm, ?_⟩
    rw [hsha]
    exact (branchTip?_of_insert hrepos).trans htip
  | merge haction hresult =>
    obtain rfl : action = _ := haction
    obtain ⟨r, r', hrepos, hedit⟩ := edited_of_ok rfl hresult
    obtain ⟨hsha, htip⟩ := hedit.commit_of_merge
    have hcount := nextCommit_of_ok (p := p) rfl rfl hresult
    refine ⟨hsha, Nat.lt_of_lt_of_eq (Nat.lt_succ_self _) hcount.symm, ?_⟩
    rw [hsha]
    exact (branchTip?_of_insert hrepos).trans htip

theorem eq_of_commitHash {n n' : Nat} (hn : n < 16 ^ 40) (hn' : n' < 16 ^ 40)
    (h : commitHash n = commitHash n') : n = n' :=
  Text.eq_of_hexDigits hn hn' (String.ofList_injective h)

/-! ## Runs -/

/-- By induction on the run: every later moment meets the counter behind the first commit. -/
theorem pairwise_commits {actions : List Action} (h : s.nextCommit + actions.length ≤ 16 ^ 40) :
    (trace p actions s).Pairwise fun m m' => ∀ {repo branch sha repo' branch' sha'},
      m.Commits p repo branch sha → m'.Commits p repo' branch' sha' → sha ≠ sha' := by
  induction actions generalizing s with
  | nil => exact .nil
  | cons a rest ih =>
    rw [List.length_cons] at h
    obtain ⟨-, hact⟩ := nextCommit_act p s a
    refine List.pairwise_cons.mpr ⟨?_, ih (by omega)⟩
    intro m' hm' repo branch sha repo' branch' sha' hfirst hlater heq
    obtain ⟨hsha, hused, -⟩ := hfirst.names
    obtain ⟨hsha', -, -⟩ := hlater.names
    obtain ⟨hle, hlt⟩ := nextCommit_of_mem_trace hm'
    have hnumber : s.nextCommit = m'.before.nextCommit :=
      eq_of_commitHash (by omega) (by omega) (hsha.symm.trans (heq.trans hsha'))
    have hlater' : s.nextCommit < m'.before.nextCommit := Nat.lt_of_lt_of_le hused hle
    exact Nat.ne_of_lt hlater' hnumber

/-- In a run of fewer than `2 ^ 64` actions no two commits have the same name, wherever they are
made. A name is forty lower-case hexadecimal digits; a repository begins with one commit for all its
branches, and each commit is the tip of its branch when it has been made. -/
theorem commits_unique (p : Provider) (actions : List Action) (hlength : actions.length < 2 ^ 64) :
    ((trace p actions {}).Pairwise fun m m' => ∀ {repo branch sha repo' branch' sha'},
      m.Commits p repo branch sha → m'.Commits p repo' branch' sha' → sha ≠ sha') ∧
    ∀ m ∈ trace p actions {},
      (∀ repo branches, m.action = .withRepository repo branches →
        ∃ sha, ∀ branch ∈ branches, m.Commits p repo branch sha) ∧
      ∀ repo branch sha, m.Commits p repo branch sha →
        sha.length = 40 ∧ (∀ c ∈ sha.toList, Text.IsLowerHex c) ∧
        (m.after p).branchTip? repo branch = some sha := by
  refine ⟨pairwise_commits ?_, fun m _ => ⟨?_, ?_⟩⟩
  · show 1 + actions.length ≤ 16 ^ 40
    omega
  · intro repo branches haction
    refine ⟨commitHash m.before.nextCommit, fun branch hbranch => .initial haction hbranch ?_⟩
    unfold Moment.after
    rw [haction]
    exact branchTip?_withRepository _ repo hbranch
  · intro repo branch sha h
    obtain ⟨rfl, -, htip⟩ := h.names
    refine ⟨?_, fun c hc => ?_, htip⟩
    · rw [commitHash, String.length_ofList, Text.length_hexDigits]
    · rw [commitHash, String.toList_ofList] at hc
      exact Text.isLowerHex_of_mem hc

/-- A file is put on a branch, and the branch is merged. -/
def mergedFile : List Action :=
  [.withRepository "o/r" ["main", "feat"],
    .call (.createFile "o/r" "notes" "text" "feat"),
    .call (.createPullRequest "o/r" "" "" "feat" "main"),
    .call (.mergePullRequest "o/r" 1)]

/-- There the target has a first tip, another one is on the source, and the merge brings a third. -/
theorem commits_unique_merged :
    ∃ first filed merged : String,
      (run .gitHub (mergedFile.take 1) {}).branchTip? "o/r" "main" = some first ∧
      ((forge .gitHub).createFile "o/r" "notes" "text" "feat"
        (run .gitHub (mergedFile.take 1) {})).result = .ok ⟨filed, "text"⟩ ∧
      ((forge .gitHub).mergePullRequest "o/r" 1 (run .gitHub (mergedFile.take 3) {})).result =
        .ok ⟨1, "feat", "main", filed, merged⟩ ∧
      (run .gitHub mergedFile {}).branchTip? "o/r" "main" = some merged ∧
      first ≠ filed ∧ first ≠ merged ∧ filed ≠ merged ∧ first.length = 40 := by
  obtain ⟨hdistinct, hcommits⟩ := commits_unique .gitHub mergedFile (by decide)
  obtain ⟨hfirst, hrest⟩ := List.pairwise_cons.mp hdistinct
  obtain ⟨hfiled, -⟩ := List.pairwise_cons.mp hrest
  have hmade : Moment.Commits .gitHub ⟨{}, .withRepository "o/r" ["main", "feat"]⟩ "o/r" "main"
      (commitHash 1) := .initial rfl (by decide) rfl
  have hfile : Moment.Commits .gitHub
      ⟨run .gitHub (mergedFile.take 1) {}, .call (.createFile "o/r" "notes" "text" "feat")⟩
      "o/r" "feat" (commitHash 2) :=
    @Moment.Commits.file _ _ "o/r" "notes" "text" "feat" ⟨commitHash 2, "text"⟩ rfl rfl
  have hmerge : Moment.Commits .gitHub
      ⟨run .gitHub (mergedFile.take 3) {}, .call (.mergePullRequest "o/r" 1)⟩
      "o/r" "main" (commitHash 3) :=
    @Moment.Commits.merge _ _ "o/r" 1 ⟨1, "feat", "main", commitHash 2, commitHash 3⟩ rfl rfl
  refine ⟨commitHash 1, commitHash 2, commitHash 3, rfl, rfl, rfl, rfl, ?_, ?_, ?_, ?_⟩
  · exact hfirst _ (.head _) hmade hfile
  · exact hfirst _ (.tail _ (.tail _ (.head _))) hmade hmerge
  · exact hfiled _ (.tail _ (.head _)) hfile hmerge
  · exact ((hcommits _ (.head _)).2 _ _ _ hmade).1

end InMemory
end ForgeChores
