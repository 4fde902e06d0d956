import ForgeChores.Proofs.InMemory.Runs

/-!
# ForgeChores.Proofs.InMemory.Branches

The branches of a repository in memory.

* `leaves` is what a call that succeeds leaves under a branch name.
* `announces` is what a call says that it does to branch names: one that creates a branch, deletes
  it or closes a pull request. Which names there are changes by nothing else, except that a merge
  brings a deleted target branch back (`names_of_change`).
* `branches_follow_iff` is that law for a moment and for a run, where it says that the last call
  that spoke of a branch is right about it.
-/

namespace ForgeChores
namespace InMemory

variable {p : Provider} {s : InMemory} {m : Moment} {path repo sha branch : String}
  {r r' : Repository} {call : Forge.Call} {answer : Forge.Answer}

/-! ## What calls do to branch names -/

/-- What a call that succeeds leaves under a branch name of the repository `r`: a tip, no branch, or
what was there. -/
def leaves (sha branch : String) (r : Repository) : Forge.Call → Option (Option String)
  | .createBranch _ base revision b =>
    if b = branch then some (if revision = "" then r.branches.get? base else some revision)
    else none
  | .deleteBranch _ b => if b = branch then some none else none
  | .mergePullRequest _ number =>
    match r.pulls.get? number with
    | some q => if q.pull.targetBranch = branch then some (some sha) else none
    | none => none
  | .closePullRequest _ number =>
    match r.pulls.get? number with
    | some q => if q.pull.sourceBranch = branch then some none else none
    | none => none
  | .createFile _ _ _ b => if b = branch then some (some sha) else none
  | _ => none

/-- What a call that succeeds says of a branch name of the repository `r`: that the branch is there
now, that it is gone, or nothing. -/
def announces (branch : String) (r : Repository) : Forge.Call → Option Bool
  | .createBranch _ _ _ b => if b = branch then some true else none
  | .deleteBranch _ b => if b = branch then some false else none
  | .closePullRequest _ number =>
    match r.pulls.get? number with
    | some q => if q.pull.sourceBranch = branch then some false else none
    | none => none
  | _ => none

/-- The call merges into a branch that is gone. -/
def RevivesIn (r : Repository) : Forge.Call → Prop
  | .mergePullRequest _ number =>
    ∃ q, r.pulls.get? number = some q ∧ r.branches.contains q.pull.targetBranch = false
  | _ => False

theorem Edit.get?_branches (h : Edit sha repo r call answer r') :
    r'.branches.get? branch = (leaves sha branch r call).getD (r.branches.get? branch) := by
  cases h with
  | @createBranch base revision b tip htip _ =>
    simp only [Table.get?_insert, leaves, htip]
    by_cases hb : b = branch
    · by_cases hrevision : revision = "" <;> simp [hb, hrevision]
    · simp [hb]
  | @deleteBranch b _ =>
    simp only [Table.get?_erase, leaves]
    by_cases hb : b = branch <;> simp [hb]
  | @merge number pull hget =>
    simp only [Table.get?_insert, leaves, hget]
    by_cases hb : pull.targetBranch = branch <;> simp [hb]
  | @close number q hget =>
    simp only [Table.get?_erase, leaves, hget]
    by_cases hb : q.pull.sourceBranch = branch <;> simp [hb]
  | @createFile file content b _ _ =>
    simp only [Table.get?_insert, leaves]
    by_cases hb : b = branch <;> simp [hb]
  | listCommitStatuses => simp [leaves]
  | _ => rfl

/-- A call that succeeds is right about the branch names, unless it merges into a branch that is
gone. -/
theorem Edit.names_iff (h : Edit sha repo r call answer r') :
    (∀ branch, r'.branches.contains branch =
      (announces branch r call).getD (r.branches.contains branch)) ↔ ¬ RevivesIn r call := by
  have hnames : ∀ branch, r'.branches.contains branch =
      ((leaves sha branch r call).getD (r.branches.get? branch)).isSome := fun branch => by
    rw [← h.get?_branches]
    rfl
  simp only [hnames]
  cases h with
  | @createBranch base revision b tip htip _ =>
    simp only [RevivesIn, not_false_eq_true, iff_true]
    intro branch
    simp only [leaves, announces, htip]
    by_cases hb : b = branch
    · by_cases hrevision : revision = "" <;> simp [hb, hrevision]
    · simp [hb, Table.contains]
  | @deleteBranch b _ =>
    simp only [RevivesIn, not_false_eq_true, iff_true]
    intro branch
    by_cases hb : b = branch <;> simp [leaves, announces, hb, Table.contains]
  | @merge number pull hget =>
    simp only [RevivesIn, leaves, announces, hget, Option.some.injEq, exists_eq_left',
      Option.getD_none, Bool.not_eq_false]
    constructor
    · intro hall
      have htarget := hall pull.targetBranch
      simpa using htarget.symm
    · intro hthere branch
      by_cases hb : pull.targetBranch = branch
      · subst hb
        simp [hthere]
      · simp [hb, Table.contains]
  | @close number q hget =>
    simp only [RevivesIn, not_false_eq_true, iff_true]
    intro branch
    by_cases hb : q.pull.sourceBranch = branch <;>
      simp [leaves, announces, hget, hb, Table.contains]
  | @createFile file content b hthere _ =>
    simp only [RevivesIn, not_false_eq_true, iff_true]
    intro branch
    simp only [leaves, announces, Option.getD_none]
    by_cases hb : b = branch
    · subst hb
      simp [hthere]
    · simp [hb, Table.contains]
  | _ => simp [RevivesIn, leaves, announces, Table.contains]

/-! ## Moments -/

namespace Moment

def announced? (p : Provider) (path branch : String) (m : Moment) : Option Bool := do
  let (call, _) ← m.edit? p path
  let r ← m.before.repos.get? path
  announces branch r call

def Revives (p : Provider) (path : String) (m : Moment) : Prop :=
  m.Carries p path fun _ => RevivesIn

end Moment

theorem names_of_change (h : Change p m path r r') (hget : m.before.repos.get? path = some r) :
    (∀ branch, r'.branches.contains branch =
      (m.announced? p path branch).getD (r.branches.contains branch)) ↔ ¬ m.Revives p path := by
  cases h with
  | aside _ _ hnone => simp [Moment.announced?, Moment.Revives, Moment.Carries, hnone]
  | edited hsome _ hedit =>
    have hnames := hedit.names_iff
    simpa [Moment.announced?, Moment.Revives, Moment.Carries, hsome, hget] using hnames

/-! ## Runs -/

/-- What the last of some moments says of which anything is said. -/
def lastOf {α : Type} (tells : Moment → Option α) (moments : List Moment) : Option α :=
  (moments.filterMap tells).getLast?

theorem lastOf_concat {α : Type} (tells : Moment → Option α) (moments : List Moment) (m : Moment) :
    lastOf tells (moments ++ [m]) = (tells m).or (lastOf tells moments) := by
  unfold lastOf
  rw [List.filterMap_append, List.getLast?_append]
  cases hm : tells m <;> simp [hm]

/-- What a run leaves of every branch name of the repository under `path` is what the last call says
that spoke of it, or what was there before the run if none did. -/
def Follows (p : Provider) (path : String) (actions : List Action) (s : InMemory) : Prop :=
  ∀ r r', s.repos.get? path = some r → (run p actions s).repos.get? path = some r' →
    ∀ branch, r'.branches.contains branch =
      (lastOf (·.announced? p path branch) (trace p actions s)).getD (r.branches.contains branch)

theorem follows_nil : Follows p path [] s := by
  intro r r' hget hget' branch
  rw [show run p [] s = s from rfl, hget] at hget'
  cases hget'
  rfl

theorem follows_concat {before : List Action} {a : Action}
    (houtlives : Outlives p path (before ++ [a]) s) (hget : s.repos.get? path = some r)
    (h : Follows p path before s) :
    Follows p path (before ++ [a]) s ↔ ¬ Moment.Revives p path ⟨run p before s, a⟩ := by
  obtain ⟨hbefore, hlast⟩ := outlives_append houtlives
  obtain ⟨r₁, hget₁, -⟩ := outlived (R := fun _ _ => True) (fun _ => trivial)
    (fun _ _ _ _ _ => trivial) (fun _ _ _ _ => trivial) hbefore hget
  obtain ⟨r₂, hget₂, hchange⟩ := change_of_outlived (outlives_cons hlast).1 hget₁
  have hrun : (run p (before ++ [a]) s).repos.get? path = some r₂ := by
    rw [run_append]
    exact hget₂
  have hfirst := h r r₁ hget hget₁
  rw [← names_of_change hchange hget₁]
  -- both sides say of `r₂` what the last moment announces, or else what was there in `r₁`
  have hlastOf : ∀ branch, (lastOf (·.announced? p path branch) (trace p (before ++ [a]) s)).getD
      (r.branches.contains branch) =
        (Moment.announced? p path branch ⟨run p before s, a⟩).getD (r₁.branches.contains branch) := by
    intro branch
    rw [trace_append]
    show (lastOf _ (trace p before s ++ [⟨run p before s, a⟩])).getD _ = _
    rw [lastOf_concat, hfirst branch]
    cases Moment.announced? p path branch ⟨run p before s, a⟩ <;> rfl
  constructor
  · intro hfollows branch
    rw [hfollows r r₂ hget hrun branch, hlastOf]
  · intro hnames r₀ r₃ hget₀ hget₃ branch
    rw [hget] at hget₀
    rw [hrun] at hget₃
    cases hget₀
    cases hget₃
    rw [hnames branch, hlastOf]

theorem branchExists_eq_ok_iff {there : Bool} :
    ((forge p).branchExists repo branch s).result = .ok there ↔
      s.failureOf (.branchExists (key repo) branch) = none ∧
        ∃ r, s.get? repo = some r ∧ r.branches.contains branch = there :=
  result_eq_ok_iff.trans (by simp)

/-- Which branches there are in a repository follows the calls that create a branch, delete it or
close a pull request, in a moment and along a run, exactly unless a pull request is merged into a
branch that is gone. -/
theorem branches_follow_iff (p : Provider) (path : String) :
    (∀ (m : Moment) (r r' : Repository), ¬ m.Ends p path → m.before.repos.get? path = some r →
      (m.after p).repos.get? path = some r' →
      ((∀ branch, r'.branches.contains branch =
        (m.announced? p path branch).getD (r.branches.contains branch)) ↔
          ¬ m.Revives p path)) ∧
    (∀ (actions : List Action) (s : InMemory) (r : Repository), s.repos.get? path = some r →
      Outlives p path actions s →
      ((∀ before after, actions = before ++ after → Follows p path before s) ↔
        ∀ m ∈ trace p actions s, ¬ m.Revives p path)) ∧
    ∀ (s : InMemory) (repo branch : String) (r : Repository), s.get? repo = some r →
      s.failureOf (.branchExists (key repo) branch) = none →
      ((forge p).branchExists repo branch s).result = .ok (r.branches.contains branch) := by
  refine ⟨?_, ?_, fun s repo branch r hget hfailure =>
    branchExists_eq_ok_iff.mpr ⟨hfailure, r, hget, rfl⟩⟩
  · intro m r r' hends hget hget'
    obtain ⟨r'', hget'', hchange⟩ := change_of_outlived hends hget
    rw [hget'] at hget''
    cases hget''
    exact names_of_change hchange hget
  · intro actions s r hget houtlives
    refine throughout_iff follows_nil fun before a after hactions hbefore => ?_
    rw [hactions, List.append_cons] at houtlives
    exact follows_concat (outlives_append houtlives).1 hget hbefore

/-- The target branch of a pull request is deleted. -/
def orphanedPull : List Action :=
  [.withRepository "o/r" ["main", "feat"],
    .call (.createPullRequest "o/r" "" "" "feat" "main"),
    .call (.deleteBranch "o/r" "main")]

/-- A merge brings a branch back of which every call says that it is gone. -/
theorem branch_revived :
    let m : Moment := ⟨run .gitHub orphanedPull {}, .call (.mergePullRequest "o/r" 1)⟩
    ∃ r r', m.before.repos.get? "o/r" = some r ∧ (m.after .gitHub).repos.get? "o/r" = some r' ∧
      r.branches.contains "main" = false ∧ r'.branches.contains "main" = true ∧
      m.announced? .gitHub "o/r" "main" = none ∧
      lastOf (·.announced? .gitHub "o/r" "main") (trace .gitHub (orphanedPull ++ [m.action]) {}) =
        some false ∧
      ((forge .gitHub).branchExists "o/r" "main" (m.after .gitHub)).result = .ok true := by
  refine ⟨_, _, rfl, rfl, ?_, ?_, ?_, ?_, ?_⟩
  all_goals rfl

end InMemory
end ForgeChores
