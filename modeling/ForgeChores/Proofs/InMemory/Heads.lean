import ForgeChores.Proofs.InMemory.Branches
import ForgeChores.Proofs.InMemory.PullRequests

/-!
# ForgeChores.Proofs.InMemory.Heads

The heads of the pull requests of a repository in memory.

A pull request keeps the head that it was opened with. So the listing is behind a source branch
exactly after a call that has left another tip under its name: a file was created there, another
pull request was merged into it, or it was made again (`listed_heads_live_iff`).
-/

namespace ForgeChores
namespace InMemory

variable {p : Provider} {s : InMemory} {m : Moment} {repo sha path branch : String}
  {r r' : Repository} {call : Forge.Call} {answer : Forge.Answer} {n : Nat} {q : Pull}

/-- Every pull request that is listed has the tip of its source branch for a head, if the branch is
there. What is set to fail is left out of account. -/
def ListsLiveHeads (p : Provider) (s : InMemory) : Prop :=
  ∀ repo pulls, ((forge p).listPullRequests repo s.clearFailure).result = .ok pulls →
    ∀ pull ∈ pulls, ∀ tip, s.branchTip? repo pull.sourceBranch = some tip → pull.headSha = tip

def Repository.HeadsLive (r : Repository) : Prop :=
  ∀ n q, r.pulls.get? n = some q → q.isOpen = true →
    ∀ tip, r.branches.get? q.pull.sourceBranch = some tip → q.pull.headSha = tip

/-- The call leaves a tip under the source branch of an open pull request that is not its head; but
a pull request that the call itself merges is not open any more. -/
def OutdatesIn (sha : String) (r : Repository) (call : Forge.Call) : Prop :=
  ∃ n q tip, r.pulls.get? n = some q ∧ q.isOpen = true ∧
    (∀ repo, call ≠ .mergePullRequest repo n) ∧
    leaves sha q.pull.sourceBranch r call = some (some tip) ∧ q.pull.headSha ≠ tip

def Moment.Outdates (p : Provider) (repo : String) (m : Moment) : Prop :=
  m.Carries p (key repo) OutdatesIn

/-! ## The listing -/

theorem listPullRequests_eq_ok_iff {pulls : List PullRequest} :
    ((forge p).listPullRequests repo s).result = .ok pulls ↔
      s.failureOf (.listPullRequests (key repo)) = none ∧
        ∃ r, s.get? repo = some r ∧ r.openPulls = pulls :=
  result_eq_ok_iff.trans (by simp)

theorem exists_of_mem_openPulls (h : r.pulls.Keyed) {pull : PullRequest}
    (hmem : pull ∈ r.openPulls) : ∃ n, r.pulls.get? n = some ⟨pull, true⟩ := by
  obtain ⟨⟨pull, isOpen⟩, hstored, rfl⟩ := List.mem_map.mp hmem
  obtain ⟨hvalue, hopen⟩ := List.mem_filter.mp hstored
  cases hopen
  exact h.mem_values_iff.mp hvalue

theorem keyed_of_change (h : Change p m path r r') (hr : r.pulls.Keyed) : r'.pulls.Keyed := by
  cases h with
  | aside => exact hr
  | edited _ _ hedit =>
    cases hedit with
    | createPull _ _ _ => exact hr.insert _ _
    | merge _ => exact hr.insert _ _
    | close _ => exact hr.insert _ _
    | listCommitStatuses =>
      rw [pulls_nextReport]
      exact hr
    | _ => exact hr

theorem keyed_run (actions : List Action) :
    Everywhere (fun r => r.pulls.Keyed) (run p actions {}) := by
  intro repo r hget
  refine run_invariant (P := fun r => r.pulls.Keyed) (fun _ _ => Table.keyed_empty)
    (fun _ _ => Table.keyed_empty) (fun _ _ _ _ => keyed_of_change) ?_ _ r hget
  intro path r hnone
  cases hnone

theorem listsLiveHeads_iff (h : Everywhere (fun r => r.pulls.Keyed) s) :
    ListsLiveHeads p s ↔ Everywhere Repository.HeadsLive s := by
  constructor
  · intro hlists repo r hget n q hq hopen tip htip
    refine hlists repo r.openPulls (listPullRequests_eq_ok_iff.mpr ⟨rfl, r, hget, rfl⟩) q.pull
      (mem_openPulls hq hopen) tip ?_
    simpa [branchTip?, hget] using htip
  · intro hlive repo pulls hlist pull hpull tip htip
    obtain ⟨-, r, hget, rfl⟩ := listPullRequests_eq_ok_iff.mp hlist
    have hget' : s.get? repo = some r := hget
    obtain ⟨n, hq⟩ := exists_of_mem_openPulls (h repo r hget') hpull
    have htip' : r.branches.get? pull.sourceBranch = some tip := by
      simpa [branchTip?, hget'] using htip
    exact hlive repo r hget' n _ hq rfl tip htip'

/-! ## One call -/

theorem Edit.keeps_open {tip : String} (h : Edit sha repo r call answer r')
    (hget : r.pulls.get? n = some q) (hother : ∀ repo, call ≠ .mergePullRequest repo n)
    (hleaves : leaves sha q.pull.sourceBranch r call = some (some tip)) :
    r'.pulls.get? n = some q := by
  cases h with
  | createBranch _ _ => exact hget
  | createFile _ _ => exact hget
  | @merge number pull hnumber =>
    have hne : number ≠ n := by
      rintro rfl
      exact hother _ rfl
    simp only [Table.get?_insert, if_neg hne, hget]
  | @close number q' hnumber =>
    -- the branch that goes is the source of the one that is closed
    simp only [leaves, hnumber] at hleaves
    split at hleaves <;> cases hleaves
  | @deleteBranch branch _ =>
    simp only [leaves] at hleaves
    split at hleaves <;> cases hleaves
  | _ => cases hleaves

theorem Edit.open_cases (h : Edit sha repo r call answer r') (hget : r'.pulls.get? n = some q)
    (hopen : q.isOpen = true) :
    (r.pulls.get? n = some q ∧ ∀ repo, call ≠ .mergePullRequest repo n) ∨
      r'.branches.get? q.pull.sourceBranch = some q.pull.headSha := by
  cases h with
  | @createPull title body head base tip htip _ _ =>
    simp only [Table.get?_insert] at hget
    split at hget
    · cases hget
      exact .inr htip
    · exact .inl ⟨hget, fun _ => by simp⟩
  | @merge number pull _ =>
    simp only [Table.get?_insert] at hget
    split at hget
    · cases hget
      cases hopen
    · rename_i hne
      refine .inl ⟨hget, fun _ hsame => hne ?_⟩
      cases hsame
      rfl
  | @close number q' _ =>
    simp only [Table.get?_insert] at hget
    split at hget
    · cases hget
      cases hopen
    · exact .inl ⟨hget, fun _ => by simp⟩
  | listCommitStatuses =>
    rw [pulls_nextReport] at hget
    exact .inl ⟨hget, fun _ => by simp⟩
  | _ => exact .inl ⟨hget, fun _ => by simp⟩

theorem headsLive_keptUnless : KeptUnless Repository.HeadsLive OutdatesIn where
  fresh := fun _ _ _ _ hget => by cases hget
  fork := fun _ _ _ _ hget => by cases hget
  aside := fun _ _ _ h => h
  edit := by
    intro sha repo r call answer r' hedit hr
    constructor
    · rintro hr' ⟨n, q, tip, hget, hopen, hother, hleaves, hne⟩
      refine hne (hr' n q (hedit.keeps_open hget hother hleaves) hopen tip ?_)
      rw [hedit.get?_branches, hleaves]
      rfl
    · intro hnone n q hget hopen tip htip
      rcases hedit.open_cases hget hopen with ⟨hold, hother⟩ | hnew
      · rw [hedit.get?_branches] at htip
        cases hleaves : leaves sha q.pull.sourceBranch r call with
        | none =>
          rw [hleaves] at htip
          exact hr n q hold hopen tip htip
        | some left =>
          rw [hleaves, Option.getD_some] at htip
          subst htip
          by_contra hne
          exact hnone ⟨n, q, tip, hold, hopen, hother, hleaves, hne⟩
      · rw [hnew] at htip
        cases htip
        rfl

/-! ## Runs -/

/-- The listing names the tips of the source branches all along a run exactly unless such a branch
moves away from the head of an open pull request; for a pull request has the head that it was opened
with for as long as its repository is there. -/
theorem listed_heads_live_iff (p : Provider) :
    (∀ actions : List Action,
      (∀ before after, actions = before ++ after → ListsLiveHeads p (run p before {})) ↔
        ∀ m ∈ trace p actions {}, ∀ repo, ¬ m.Outdates p repo) ∧
    ∀ (before after : List Action) (path : String) (r : Repository),
      (run p before {}).repos.get? path = some r → Outlives p path after (run p before {}) →
      ∃ r', (run p (before ++ after) {}).repos.get? path = some r' ∧
        ∀ n q, r.pulls.get? n = some q →
          ∃ q', r'.pulls.get? n = some q' ∧ q'.pull.headSha = q.pull.headSha := by
  refine ⟨fun actions => ?_, fun before after path r hget houtlives => ?_⟩
  · simp only [listsLiveHeads_iff (keyed_run _)]
    exact headsLive_keptUnless.throughout_iff p actions
  · obtain ⟨r', hget', -, hlater⟩ := later_run houtlives hget (sound_run hget)
    rw [← run_append] at hget'
    refine ⟨r', hget', fun n q hq => ?_⟩
    obtain ⟨q', hq', hqq'⟩ := hlater n q hq
    exact ⟨q', hq', hqq'.headSha_eq⟩

/-- A file is created on the source branch of an open pull request. -/
def movedHead : List Action :=
  [.withRepository "o/r" ["main", "feat"],
    .call (.createPullRequest "o/r" "" "" "feat" "main"),
    .call (.createFile "o/r" "a.txt" "x" "feat")]

theorem listed_head_outdated :
    let s := run .gitHub movedHead {}
    ((forge .gitHub).listPullRequests "o/r" s).result =
        .ok [⟨1, "feat", "main", commitHash 1, ""⟩] ∧
      s.branchTip? "o/r" "feat" = some (commitHash 2) ∧ commitHash 1 ≠ commitHash 2 := by
  refine ⟨rfl, rfl, ?_⟩
  decide

end InMemory
end ForgeChores
