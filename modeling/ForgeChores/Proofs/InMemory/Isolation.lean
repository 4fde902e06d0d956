import ForgeChores.Proofs.InMemory.Failing

/-!
# ForgeChores.Proofs.InMemory.Isolation

Repositories in memory do not touch each other.

* An action changes one repository at most, the one that `changes` names; a fork changes its target
  (`get?_act`, `get?_run`).
* What is asked about one repository alone depends on that repository and on what is set to fail
  (`answer_local`), so an action elsewhere changes no answer.
* A repository goes by its full path, however it is spelled (`answer_respelled`, `act_respelled`).
* `repositories_isolated`: all of it together, and that a fork and its source go separate ways.
-/

namespace ForgeChores

/-- The only repository that a call may change. -/
def Forge.Call.changes : Forge.Call → String
  | .createBranch repo _ _ _ => repo
  | .deleteBranch repo _ => repo
  | .branchExists repo _ => repo
  | .listPullRequests repo => repo
  | .createPullRequest repo _ _ _ _ => repo
  | .mergePullRequest repo _ => repo
  | .closePullRequest repo _ => repo
  | .createFile repo _ _ _ => repo
  | .getFile repo _ _ => repo
  | .cleanupWebhooks repo _ => repo
  | .forkRepository _ target => target
  | .deleteRepository repo => repo
  | .listCommitStatuses repo _ => repo
  | .statusConclusion repo _ _ _ => repo

/-- Whether a call is answered from one repository alone. A fork looks at two, and what makes a
commit answers with its hash, which comes from the counter that all repositories share. -/
def Forge.Call.isLocal : Forge.Call → Bool
  | .mergePullRequest _ _ => false
  | .createFile _ _ _ _ => false
  | .forkRepository _ _ => false
  | _ => true

/-- The call with its repositories named another way. -/
def Forge.Call.named (f : String → String) : Forge.Call → Forge.Call
  | .createBranch repo base revision branch => .createBranch (f repo) base revision branch
  | .deleteBranch repo branch => .deleteBranch (f repo) branch
  | .branchExists repo branch => .branchExists (f repo) branch
  | .listPullRequests repo => .listPullRequests (f repo)
  | .createPullRequest repo title body head base => .createPullRequest (f repo) title body head base
  | .mergePullRequest repo number => .mergePullRequest (f repo) number
  | .closePullRequest repo number => .closePullRequest (f repo) number
  | .createFile repo path content branch => .createFile (f repo) path content branch
  | .getFile repo path branch => .getFile (f repo) path branch
  | .cleanupWebhooks repo host => .cleanupWebhooks (f repo) host
  | .forkRepository source target => .forkRepository (f source) (f target)
  | .deleteRepository repo => .deleteRepository (f repo)
  | .listCommitStatuses repo commit => .listCommitStatuses (f repo) commit
  | .statusConclusion repo commit name o => .statusConclusion (f repo) commit name o

namespace InMemory

/-- The only repository that an action may change, if there is one. -/
def Action.changes? : Action → Option String
  | .call c => some c.changes
  | .withRepository repo _ => some repo
  | .addWebhook repo _ => some repo
  | .scriptStatuses repo _ _ => some repo
  | .failOn _ _ => none
  | .clearFailure => none
  | .clearLog => none

/-- The action with its repositories named another way. -/
def Action.named (f : String → String) : Action → Action
  | .call c => .call (c.named f)
  | .withRepository repo branches => .withRepository (f repo) branches
  | .addWebhook repo url => .addWebhook (f repo) url
  | .scriptStatuses repo commit reports => .scriptStatuses (f repo) commit reports
  | .failOn kind e => .failOn kind e
  | .clearFailure => .clearFailure
  | .clearLog => .clearLog

variable {α : Type} {p : Provider} {s t : InMemory} {path repo context sha : String}
  {call : Forge.Call}

/-! ## One action -/

theorem Edit.changes {answer : Forge.Answer} {r r' : Repository}
    (h : Edit sha repo r call answer r') : call.changes = repo := by
  cases h <;> rfl

theorem get?_answer (h : key call.changes ≠ path) :
    ((forge p).answer call s).state.repos.get? path = s.repos.get? path := by
  have houtcome := outcome p call s
  generalize ((forge p).answer call s).state.repos = repos at houtcome ⊢
  generalize ((forge p).answer call s).result = result at houtcome
  cases houtcome with
  | failed => rfl
  | edited _ hedit =>
    rw [hedit.changes] at h
    exact Table.get?_insert_of_ne h
  | @forked source target r hsource _ =>
    refine (Table.get?_insert_of_ne h).trans ?_
    -- the source is put back as it was
    rw [Table.get?_insert]
    split
    · rename_i hsame
      rw [← hsame]
      exact hsource.symm
    · rfl
  | deleted => exact Table.get?_erase_of_ne h
  | waited huses =>
    rcases huses with rfl | ⟨r, reports, -, rfl⟩
    · rfl
    · exact Table.get?_insert_of_ne h

theorem get?_act {a : Action} (h : ∀ changed, a.changes? = some changed → key changed ≠ path) :
    (act p s a).repos.get? path = s.repos.get? path := by
  cases a with
  | call c => exact get?_answer (h _ rfl)
  | withRepository repo branches => exact Table.get?_insert_of_ne (h _ rfl)
  | addWebhook repo url =>
    simp only [act, addWebhook]
    split
    · exact Table.get?_insert_of_ne (h _ rfl)
    · rfl
  | scriptStatuses repo commit reports =>
    simp only [act, scriptStatuses]
    split
    · exact Table.get?_insert_of_ne (h _ rfl)
    · rfl
  | failOn kind e => rfl
  | clearFailure => rfl
  | clearLog => rfl

theorem get?_run {actions : List Action}
    (h : ∀ a ∈ actions, ∀ changed, a.changes? = some changed → key changed ≠ path) :
    (run p actions s).repos.get? path = s.repos.get? path := by
  induction actions generalizing s with
  | nil => rfl
  | cons a rest ih =>
    obtain ⟨ha, hrest⟩ := List.forall_mem_cons.mp h
    exact (ih hrest).trans (get?_act ha)

/-! ## What is asked about one repository -/

/-- Both hold the same under `path`, and the same is set to fail. -/
structure SameAt (path : String) (s t : InMemory) : Prop where
  repo : s.repos.get? path = t.repos.get? path
  failing : s.failing = t.failing

/-- The same comes of a change to either, and they hold the same under `path` then. -/
def SameChange (path : String) :
    Except ForgeError (α × Table String Repository) →
    Except ForgeError (α × Table String Repository) → Prop
  | .ok (a, repos), .ok (a', repos') => a = a' ∧ repos.get? path = repos'.get? path
  | .error e, .error e' => e = e'
  | _, _ => False

/-- What comes of the change depends on nothing but what is under `path`. -/
def ChangesAt (path : String)
    (change : Table String Repository → Except ForgeError (α × Table String Repository)) : Prop :=
  ∀ repos repos', repos.get? path = repos'.get? path → SameChange path (change repos) (change repos')

theorem within_changesAt (change : Repository → Except ForgeError (α × Repository)) :
    ChangesAt (key repo) (within context repo change) := by
  intro repos repos' h
  unfold within
  rw [h]
  cases repos'.get? (key repo) with
  | none => rfl
  | some r =>
    cases hchange : change r with
    | error e =>
      simp only [hchange]
      rfl
    | ok done =>
      simp only [hchange]
      exact ⟨rfl, by rw [Table.get?_insert, Table.get?_insert, if_pos rfl, if_pos rfl]⟩

theorem attempt_local {op : Operation}
    {change : Table String Repository → Except ForgeError (α × Table String Repository)}
    (h : ChangesAt path change) : (attempt op fun _ => change).Agrees (SameAt path) := by
  refine Attempt.agrees_step fun s t hst => ?_
  have hfailing : (perform op (fun _ => change) s).2.failing =
      (perform op (fun _ => change) t).2.failing :=
    (sameBeside_perform op _ s).failing.trans
      (hst.failing.trans (sameBeside_perform op _ t).failing.symm)
  suffices hsame : (perform op (fun _ => change) s).1 = (perform op (fun _ => change) t).1 ∧
      (perform op (fun _ => change) s).2.repos.get? path =
        (perform op (fun _ => change) t).2.repos.get? path from
    ⟨rfl, hsame.1, hsame.2, hfailing⟩
  unfold perform
  rw [failureOf_congr hst.failing]
  cases t.failureOf op with
  | some e => exact ⟨rfl, hst.repo⟩
  | none =>
    have hchange := h s.repos t.repos hst.repo
    simp only
    generalize change s.repos = done at hchange ⊢
    generalize change t.repos = done' at hchange ⊢
    cases done with
    | error e =>
      cases done' with
      | error e' =>
        cases hchange
        refine ⟨rfl, ?_⟩
        simp only [repos_advance]
        exact hst.repo
      | ok _ => exact hchange.elim
    | ok done =>
      cases done' with
      | error e' => exact hchange.elim
      | ok done' => exact ⟨congrArg Except.ok hchange.1, hchange.2⟩

theorem cleanup_changesAt (repo host : String) :
    ChangesAt (key repo) fun repos =>
      if host = "" then .error .emptyHost
      else
        within (Context.cleanupWebhooks (key repo)) repo (fun r => .ok ((), r.removeHook host))
          repos := by
  intro repos repos' h
  by_cases hhost : host = ""
  · simp only [if_pos hhost]
    rfl
  · simp only [if_neg hhost]
    exact within_changesAt _ repos repos' h

theorem deletion_changesAt (repo : String) :
    ChangesAt (key repo) fun repos => .ok (repos.contains (key repo), repos.erase (key repo)) := by
  intro repos repos' h
  refine ⟨?_, ?_⟩
  · unfold Table.contains
    rw [h]
  · rw [Table.get?_erase, Table.get?_erase, if_pos rfl, if_pos rfl]

theorem answer_local (h : call.isLocal = true) :
    ((forge p).answer call).Agrees (SameAt (key call.changes)) := by
  have hwithin : ∀ {β : Type} {op : Operation} {context repo : String}
      {change : Repository → Except ForgeError (β × Repository)} {toAnswer : β → Forge.Answer},
      (Task.ofAttempt (attempt op fun _ => within context repo change) >>= fun a =>
        (pure (toAnswer a) : Task InMemory ForgeError Forge.Answer)).Agrees (SameAt (key repo)) :=
    (Task.Agrees.ofAttempt (attempt_local (within_changesAt _))).bind fun _ => Task.agrees_pure _
  cases call with
  | mergePullRequest repo number => cases h
  | createFile repo path content branch => cases h
  | forkRepository source target => cases h
  | cleanupWebhooks repo host =>
    exact (Task.Agrees.ofAttempt (attempt_local (cleanup_changesAt repo host))).bind
      fun _ => Task.agrees_pure _
  | deleteRepository repo =>
    exact (Task.Agrees.ofAttempt (attempt_local (deletion_changesAt repo))).bind
      fun _ => Task.agrees_pure _
  | statusConclusion repo commit name o =>
    have hreport : (listCommitStatuses repo commit).Agrees (SameAt (key repo)) :=
      attempt_local (within_changesAt _)
    exact (Wait.forStatus_agrees hreport).mapError.bind fun _ => Task.agrees_pure _
  | _ => exact hwithin

/-- What can be asked about a repository alone is answered alike in both states. -/
structure AnswersAlike (p : Provider) (repo : String) (s t : InMemory) : Prop where
  calls : ∀ call : Forge.Call, call.isLocal = true → key call.changes = key repo →
    ((forge p).answer call s).result = ((forge p).answer call t).result
  webhooks : s.webhooks repo = t.webhooks repo
  tips : ∀ branch, s.branchTip? repo branch = t.branchTip? repo branch
  presence : s.hasRepository repo = t.hasRepository repo
  isOpen : ∀ number, s.isOpen repo number = t.isOpen repo number

theorem SameAt.answersAlike (h : SameAt (key repo) s t) : AnswersAlike p repo s t where
  calls := by
    intro call hlocal hrepo
    have hagrees : ((forge p).answer call).Agrees (SameAt (key call.changes)) :=
      answer_local hlocal
    rw [hrepo] at hagrees
    exact (hagrees s t h).result
  webhooks := by simp only [InMemory.webhooks, get?, h.repo]
  tips := by simp only [branchTip?, get?, h.repo, implies_true]
  presence := by simp only [hasRepository, Table.contains, h.repo]
  isOpen := by simp only [InMemory.isOpen, get?, h.repo, implies_true]

/-! ## Spellings -/

theorem within_eq (context repo : String)
    (change : Repository → Except ForgeError (α × Repository)) :
    within context repo change = fun repos =>
      match repos.get? (key repo) with
      | none => .error (.notFound context ("repository " ++ key repo ++ " does not exist"))
      | some r => do
        let (a, r) ← change r
        return (a, repos.insert (key repo) r) := rfl

theorem answer_respelled {c c' : Forge.Call} (h : c.named key = c'.named key) :
    (forge p).answer c = (forge p).answer c' := by
  -- both are calls of one operation, and that meets a repository only under its full path
  cases c <;> cases c' <;> injection h
  all_goals subst_vars
  all_goals simp only [Forge.answer, forge, Forge.statusConclusion, createBranch, deleteBranch,
    branchExists, listPullRequests, createPullRequest, mergePullRequest, closePullRequest,
    createFile, getFile, cleanupWebhooks, forkRepository, deleteRepository, listCommitStatuses,
    within_eq, *]

theorem act_respelled {a a' : Action} (h : a.named key = a'.named key) :
    act p s a = act p s a' := by
  cases a <;> cases a' <;> injection h
  case call.call c c' hcall =>
    show ((forge p).answer c s).state = ((forge p).answer c' s).state
    rw [answer_respelled hcall]
  all_goals subst_vars
  all_goals simp only [act, withRepository, addWebhook, scriptStatuses, get?, *]

/-! ## Forks -/

theorem answer_forkRepository (p : Provider) (s : InMemory) (source target : String) :
    (forge p).answer (.forkRepository source target) s =
      ⟨((forge p).forkRepository source target s).result.map fun _ => .nothing,
        ((forge p).forkRepository source target s).elapsed,
        ((forge p).forkRepository source target s).state⟩ :=
  Task.bind_pure ((forge p).forkRepository source target) _ s

theorem forked_of_ok {source target : String}
    (h : ((forge p).forkRepository source target s).result = .ok ()) :
    ∃ r, s.get? source = some r ∧ s.get? target = none ∧
      ((forge p).forkRepository source target s).state.repos =
        (s.repos.insert (key source) r).insert (key target) r.fork := by
  have houtcome := outcome p (.forkRepository source target) s
  rw [answer_forkRepository, h] at houtcome
  simp only at houtcome
  generalize ((forge p).forkRepository source target s).state.repos = repos at houtcome ⊢
  cases houtcome with
  | edited _ hedit => cases hedit
  | forked hsource htarget => exact ⟨_, hsource, htarget, rfl⟩

/-- An action changes the repository it names, a fork its target, and leaves every other as it was
and every question about it with the same answer. Spellings of one full path are interchangeable. A
fork adds its target, with the branches and files that the source has then and nothing else; what is
done to the one alone from then on does not show in the other. -/
theorem repositories_isolated (p : Provider) :
    (∀ (s : InMemory) (a : Action) (changed repo : String), a.changes? = some changed →
      key repo ≠ key changed →
      (act p s a).get? repo = s.get? repo ∧ AnswersAlike p repo (act p s a) s) ∧
    (∀ (s : InMemory) (a a' : Action), a.named key = a'.named key → act p s a = act p s a') ∧
    (∀ c c' : Forge.Call, c.named key = c'.named key → (forge p).answer c = (forge p).answer c') ∧
    ∀ (s : InMemory) (source target : String),
      ((forge p).forkRepository source target s).result = .ok () →
      let s' := ((forge p).forkRepository source target s).state
      (∃ r, s.get? source = some r ∧ s.get? target = none ∧ s'.get? target =
        some { branches := r.branches, files := r.files, pulls := .empty, hooks := [],
               reports := .empty }) ∧
      (∀ repo, key repo ≠ key target → s'.get? repo = s.get? repo) ∧
      ∀ actions : List Action,
        ((∀ a ∈ actions, ∀ changed, a.changes? = some changed → key changed = key source) →
          (run p actions s').get? target = s'.get? target) ∧
        ((∀ a ∈ actions, ∀ changed, a.changes? = some changed → key changed = key target) →
          (run p actions s').get? source = s'.get? source) := by
  refine ⟨fun s a changed repo hchanged hrepo => ?_, fun _ _ _ => act_respelled,
    fun _ _ => answer_respelled, ?_⟩
  · have hother : ∀ changed', a.changes? = some changed' → key changed' ≠ key repo := by
      intro changed' h
      rw [hchanged] at h
      cases h
      exact Ne.symm hrepo
    have hkeeps : a.setsFailure = false := by
      cases a with
      | failOn kind e => cases hchanged
      | clearFailure => cases hchanged
      | _ => rfl
    have hsame : SameAt (key repo) (act p s a) s := ⟨get?_act hother, failing_act hkeeps⟩
    exact ⟨hsame.repo, hsame.answersAlike⟩
  · intro s source target hok s'
    obtain ⟨r, hsource, htarget, hrepos⟩ := forked_of_ok hok
    have hdistinct : key source ≠ key target := by
      intro hsame
      unfold get? at hsource htarget
      rw [hsame, htarget] at hsource
      cases hsource
    refine ⟨⟨r, hsource, htarget, ?_⟩, fun repo hrepo => ?_, fun actions => ⟨?_, ?_⟩⟩
    · show s'.repos.get? (key target) = _
      rw [hrepos, Table.get?_insert, if_pos rfl]
      rfl
    · have hframe : ((forge p).answer (.forkRepository source target) s).state.get? repo =
          s.get? repo := get?_answer (Ne.symm hrepo)
      rw [answer_forkRepository] at hframe
      exact hframe
    · intro halone
      exact get?_run fun a ha changed h => by
        rw [halone a ha changed h]
        exact hdistinct
    · intro halone
      exact get?_run fun a ha changed h => by
        rw [halone a ha changed h]
        exact Ne.symm hdistinct

/-- A repository with a file and a webhook. -/
def forkable : List Action :=
  [.withRepository "o/r" ["main"], .call (.createFile "o/r" "a.txt" "text" "main"),
    .addWebhook "o/r" "https://ci.example/hook"]

/-- It is forked under the default owner. The fork outlives its source, the source its fork, and a
webhook of the fork is none of the source's, however the fork is spelled. -/
theorem repositories_isolated_forked :
    let s := run .gitHub forkable {}
    let s' := ((forge .gitHub).forkRepository "/o/r/" " x" s).state
    let deletion (repo : String) : List Action := [.call (.deleteRepository repo)]
    ((forge .gitHub).forkRepository "/o/r/" " x" s).result = .ok () ∧
      (run .gitHub (deletion "o/r") s').get? " x" = s'.get? " x" ∧
      (run .gitHub (deletion "mock-org/x") s').get? "/o/r/" = s'.get? "/o/r/" ∧
      act .gitHub s' (.addWebhook "x" "url") = act .gitHub s' (.addWebhook "/mock-org/x" "url") ∧
      (forge .gitHub).answer (.branchExists "x" "main") =
        (forge .gitHub).answer (.branchExists "mock-org/x/" "main") ∧
      AnswersAlike .gitHub "o/r" (act .gitHub s' (.addWebhook "x" "url")) s' := by
  intro s s' deletion
  obtain ⟨hother, hact, hanswer, hfork⟩ := repositories_isolated .gitHub
  have hok : ((forge .gitHub).forkRepository "/o/r/" " x" s).result = .ok () := rfl
  obtain ⟨-, -, hrun⟩ := hfork s "/o/r/" " x" hok
  refine ⟨hok, (hrun _).1 ?_, (hrun _).2 ?_, hact _ _ _ ?_, hanswer _ _ ?_,
    (hother s' _ "x" "o/r" rfl ?_).2⟩
  · intro a ha changed hchanged
    cases List.mem_singleton.mp ha
    cases hchanged
    decide
  · intro a ha changed hchanged
    cases List.mem_singleton.mp ha
    cases hchanged
    decide
  · rfl
  · rfl
  · decide

end InMemory
end ForgeChores
