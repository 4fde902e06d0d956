import Mathlib.Data.List.Induction
import ForgeChores.Proofs.InMemory.Outcome

/-!
# ForgeChores.Proofs.InMemory.Runs

Runs of a forge in memory: calls of the forge, and what its user does behind it, in any order.

A run is taken apart into its moments, each an action with the state it meets. `fate` says what
becomes of one repository in one moment: it is made anew, forked or deleted, or it is changed, and
then by the one call that is carried out on it (`Change`). From there on runs are by induction, once
for each kind of statement:

* `run_invariant`: what holds of every new repository and is kept by every change holds of all.
* `outlived`: what relates a repository to itself over every change relates it over a run that it
  outlives.
* `throughout_iff`: what every moment keeps exactly if it is of one kind holds all along exactly the
  runs that have no other moments, and in particular what calls keep exactly unless they are of one
  kind (`KeptUnless.throughout_iff`).
-/

namespace ForgeChores

/-- The repository that a call is carried out on, if it is one operation on one repository. -/
def Forge.Call.target? : Forge.Call → Option String
  | .createBranch repo _ _ _ => some repo
  | .deleteBranch repo _ => some repo
  | .branchExists repo _ => some repo
  | .listPullRequests repo => some repo
  | .createPullRequest repo _ _ _ _ => some repo
  | .mergePullRequest repo _ => some repo
  | .closePullRequest repo _ => some repo
  | .createFile repo _ _ _ => some repo
  | .getFile repo _ _ => some repo
  | .cleanupWebhooks repo _ => some repo
  | .listCommitStatuses repo _ => some repo
  | .forkRepository _ _ => none
  | .deleteRepository _ => none
  | .statusConclusion _ _ _ _ => none

namespace InMemory

/-- A call of the forge, or something done behind it. -/
inductive Action where
  | call (c : Forge.Call)
  | withRepository (repo : String) (branches : List String)
  | addWebhook (repo url : String)
  | scriptStatuses (repo commit : String) (reports : List (List CommitStatus))
  | failOn (kind : Operation.Kind) (e : ForgeError)
  | clearFailure
  | clearLog

def act (p : Provider) (s : InMemory) : Action → InMemory
  | .call c => ((forge p).answer c s).state
  | .withRepository repo branches => s.withRepository repo branches
  | .addWebhook repo url => s.addWebhook repo url
  | .scriptStatuses repo commit reports => s.scriptStatuses repo commit reports
  | .failOn kind e => s.failOn kind e
  | .clearFailure => s.clearFailure
  | .clearLog => s.clearLog

def run (p : Provider) (actions : List Action) (s : InMemory) : InMemory :=
  actions.foldl (act p) s

/-- An action and the state it meets. -/
structure Moment where
  before : InMemory
  action : Action

def trace (p : Provider) : List Action → InMemory → List Moment
  | [], _ => []
  | a :: rest, s => ⟨s, a⟩ :: trace p rest (act p s a)

namespace Moment

def after (p : Provider) (m : Moment) : InMemory := act p m.before m.action

/-- The call that is carried out on the repository under `path` in this moment, and its answer; none
if it fails. -/
def edit? (p : Provider) (path : String) (m : Moment) : Option (Forge.Call × Forge.Answer) :=
  match m.action with
  | .call c =>
    match ((forge p).answer c m.before).result with
    | .ok answer => if c.target?.map key = some path then some (c, answer) else none
    | .error _ => none
  | _ => none

/-- The repository under `path` is deleted or made anew. -/
def Ends (p : Provider) (path : String) (m : Moment) : Prop :=
  match m.action with
  | .withRepository repo _ => key repo = path
  | .call (.deleteRepository repo) =>
    key repo = path ∧ ((forge p).answer (.deleteRepository repo) m.before).result.isOk = true
  | _ => False

/-- A call is carried out on the repository under `path` that `B` holds of, together with the hash
of the next commit and with the repository. -/
def Carries (p : Provider) (path : String) (B : String → Repository → Forge.Call → Prop)
    (m : Moment) : Prop :=
  ∃ call answer r, m.edit? p path = some (call, answer) ∧ m.before.repos.get? path = some r ∧
    B (commitHash m.before.nextCommit) r call

end Moment

/-- The repository under `path` is neither deleted nor made anew in the run. -/
def Outlives (p : Provider) (path : String) (actions : List Action) (s : InMemory) : Prop :=
  ∀ m ∈ trace p actions s, ¬ m.Ends p path

def Repository.fresh (branches : List String) (sha : String) : Repository :=
  { branches := branches.foldl (fun t b => t.insert b sha) .empty }

/-! ## One moment -/

variable {p : Provider} {s : InMemory} {m : Moment} {path repo : String} {r r' : Repository}

/-- What a moment makes of the repository `r` under `path`: what the call does that is carried out
on it, and if there is none nothing but other webhooks and reports. -/
inductive Change (p : Provider) (m : Moment) (path : String) (r : Repository) :
    Repository → Prop where
  | aside (hooks : List Hook) (reports : Table String (List (List CommitStatus))) :
      m.edit? p path = none → Change p m path r { r with hooks := hooks, reports := reports }
  | edited {repo : String} {call : Forge.Call} {answer : Forge.Answer} {r' : Repository} :
      m.edit? p path = some (call, answer) → key repo = path →
      Edit (commitHash m.before.nextCommit) repo r call answer r' → Change p m path r r'

/-- What is under `path` after a moment. -/
inductive Fate (p : Provider) (m : Moment) (path : String) : Option Repository → Prop where
  | absent : m.before.repos.get? path = none → Fate p m path none
  | deleted : m.Ends p path → Fate p m path none
  | made {repo : String} {branches : List String} : m.action = .withRepository repo branches →
      key repo = path →
      Fate p m path (some (.fresh branches (commitHash m.before.nextCommit)))
  | forked {source : String} {r : Repository} : m.before.repos.get? path = none →
      m.before.get? source = some r → Fate p m path (some r.fork)
  | changed {r r' : Repository} : m.before.repos.get? path = some r → Change p m path r r' →
      Fate p m path (some r')

theorem Edit.target? {sha : String} {call : Forge.Call} {answer : Forge.Answer}
    (h : Edit sha repo r call answer r') : call.target? = some repo := by
  cases h <;> rfl

/-- A call on one repository that succeeds is carried out on it. -/
theorem edited_of_ok {call : Forge.Call} {answer : Forge.Answer}
    (htarget : call.target? = some repo)
    (hok : ((forge p).answer call s).result = .ok answer) :
    ∃ r r', ((forge p).answer call s).state.repos = s.repos.insert (key repo) r' ∧
      Edit (commitHash s.nextCommit) repo r call answer r' := by
  have houtcome := outcome p call s
  rw [hok] at houtcome
  generalize ((forge p).answer call s).state.repos = repos at houtcome
  cases houtcome with
  | @edited repo' _ _ r r' hget hedit =>
    have hrepo : some repo' = some repo := hedit.target?.symm.trans htarget
    cases hrepo
    exact ⟨r, r', rfl, hedit⟩
  | _ => cases htarget

theorem fate_of_same (hsame : (m.after p).repos.get? path = m.before.repos.get? path)
    (hedit : m.edit? p path = none) : Fate p m path ((m.after p).repos.get? path) := by
  rw [hsame]
  cases hget : m.before.repos.get? path with
  | none => exact .absent hget
  | some r => exact .changed hget (.aside r.hooks r.reports hedit)

theorem fate_of_aside (hooks : List Hook) (reports : Table String (List (List CommitStatus)))
    (hget : m.before.repos.get? (key repo) = some r)
    (hafter : (m.after p).repos =
      m.before.repos.insert (key repo) { r with hooks := hooks, reports := reports })
    (hedit : m.edit? p path = none) : Fate p m path ((m.after p).repos.get? path) := by
  by_cases hpath : key repo = path
  · subst hpath
    rw [hafter, Table.get?_insert, if_pos rfl]
    exact .changed hget (.aside _ _ hedit)
  · exact fate_of_same (by rw [hafter, Table.get?_insert, if_neg hpath]) hedit

theorem fate_of_call (p : Provider) (s : InMemory) (c : Forge.Call) (path : String) :
    Fate p ⟨s, .call c⟩ path ((act p s (.call c)).repos.get? path) := by
  have houtcome := outcome p c s
  have hafter : (Moment.after p ⟨s, .call c⟩).repos = ((forge p).answer c s).state.repos := rfl
  generalize hrepos : ((forge p).answer c s).state.repos = repos at houtcome hafter
  generalize hresult : ((forge p).answer c s).result = result at houtcome
  -- a call without a target is carried out on no repository
  have huntargeted : c.target? = none → Moment.edit? p path ⟨s, .call c⟩ = none := by
    intro h
    simp only [Moment.edit?, h, Option.map_none, reduceCtorEq, if_false]
    split <;> rfl
  cases houtcome with
  | failed =>
    refine fate_of_same (by rw [hafter]) ?_
    simp only [Moment.edit?, hresult]
  | @edited repo _ answer r r' hget hedit =>
    by_cases hpath : key repo = path
    · subst hpath
      show Fate _ _ _ ((Moment.after p ⟨s, .call c⟩).repos.get? _)
      rw [hafter, Table.get?_insert, if_pos rfl]
      have hsome : Moment.edit? p (key repo) ⟨s, .call c⟩ = some (c, answer) := by
        simp [Moment.edit?, hresult, hedit.target?]
      exact .changed hget (.edited hsome rfl hedit)
    · refine fate_of_same (by rw [hafter, Table.get?_insert, if_neg hpath]) ?_
      simp [Moment.edit?, hresult, hedit.target?, hpath]
  | @forked source target r hsource htarget =>
    by_cases hpath : key target = path
    · subst hpath
      show Fate _ _ _ ((Moment.after p ⟨s, .call _⟩).repos.get? _)
      rw [hafter, Table.get?_insert, if_pos rfl]
      exact .forked htarget hsource
    · refine fate_of_same ?_ (huntargeted rfl)
      rw [hafter, Table.get?_insert, if_neg hpath, Table.get?_insert]
      split
      · rename_i hsame
        subst hsame
        exact hsource.symm
      · rfl
  | @deleted repo =>
    by_cases hpath : key repo = path
    · subst hpath
      show Fate _ _ _ ((Moment.after p ⟨s, .call _⟩).repos.get? _)
      rw [hafter, Table.get?_erase, if_pos rfl]
      exact .deleted ⟨rfl, by rw [hresult]; rfl⟩
    · exact fate_of_same (by rw [hafter, Table.get?_erase, if_neg hpath]) (huntargeted rfl)
  | waited huses =>
    rcases huses with hsame | ⟨r, reports, hget, hinsert⟩
    · exact fate_of_same (by rw [hafter, hsame]) (huntargeted rfl)
    · exact fate_of_aside _ _ hget (hafter.trans hinsert) (huntargeted rfl)

theorem fate (p : Provider) (m : Moment) (path : String) :
    Fate p m path ((m.after p).repos.get? path) := by
  obtain ⟨s, action⟩ := m
  cases action with
  | call c => exact fate_of_call p s c path
  | withRepository repo branches =>
    by_cases hpath : key repo = path
    · subst hpath
      have hafter : (Moment.after p ⟨s, .withRepository repo branches⟩).repos.get? (key repo) =
          some (.fresh branches (commitHash s.nextCommit)) := by
        simp [Moment.after, act, withRepository, Repository.fresh]
      rw [hafter]
      exact .made rfl rfl
    · refine fate_of_same ?_ rfl
      simp [Moment.after, act, withRepository, hpath]
  | addWebhook repo url =>
    cases hget : s.get? repo with
    | none => exact fate_of_same (by simp [Moment.after, act, addWebhook, hget]) rfl
    | some r =>
      exact fate_of_aside (r.hooks ++ [⟨s.nextHook, url⟩]) r.reports hget
        (by simp [Moment.after, act, addWebhook, hget]) rfl
  | scriptStatuses repo commit reports =>
    cases hget : s.get? repo with
    | none => exact fate_of_same (by simp [Moment.after, act, scriptStatuses, hget]) rfl
    | some r =>
      exact fate_of_aside r.hooks (r.reports.insert commit reports) hget
        (by simp [Moment.after, act, scriptStatuses, hget]) rfl
  | failOn kind e => exact fate_of_same rfl rfl
  | clearFailure => exact fate_of_same rfl rfl
  | clearLog => exact fate_of_same rfl rfl

theorem change_of_outlived (hends : ¬ m.Ends p path) (hget : m.before.repos.get? path = some r) :
    ∃ r', (m.after p).repos.get? path = some r' ∧ Change p m path r r' := by
  have hfate := fate p m path
  generalize hafter : (m.after p).repos.get? path = after at hfate
  cases hfate with
  | absent hnone =>
    rw [hget] at hnone
    cases hnone
  | deleted h => exact absurd h hends
  | made haction hpath =>
    refine absurd ?_ hends
    simp only [Moment.Ends, haction, hpath]
  | forked hnone =>
    rw [hget] at hnone
    cases hnone
  | changed hget' hchange =>
    rw [hget] at hget'
    cases hget'
    exact ⟨_, rfl, hchange⟩

theorem target?_of_edit? {call : Forge.Call} {answer : Forge.Answer}
    (h : m.edit? p path = some (call, answer)) :
    m.action = .call call ∧ call.target?.map key = some path := by
  unfold Moment.edit? at h
  split at h
  · rename_i c haction
    split at h
    · split at h
      · rename_i htarget
        cases h
        exact ⟨haction, htarget⟩
      · cases h
    · cases h
  · cases h

theorem not_ends_of_edit? {call : Forge.Call} {answer : Forge.Answer}
    (h : m.edit? p path = some (call, answer)) : ¬ m.Ends p path := by
  obtain ⟨haction, htarget⟩ := target?_of_edit? h
  unfold Moment.Ends
  rw [haction]
  cases call with
  | deleteRepository repo => cases htarget
  | _ => exact id

theorem edit_of_edit? {call : Forge.Call} {answer : Forge.Answer}
    (h : m.edit? p path = some (call, answer)) (hget : m.before.repos.get? path = some r) :
    ∃ repo r', (m.after p).repos.get? path = some r' ∧
      Edit (commitHash m.before.nextCommit) repo r call answer r' := by
  obtain ⟨r', hget', hchange⟩ := change_of_outlived (not_ends_of_edit? h) hget
  cases hchange with
  | aside _ _ hnone =>
    rw [h] at hnone
    cases hnone
  | edited hsome _ hedit =>
    rw [h] at hsome
    cases hsome
    exact ⟨_, _, hget', hedit⟩

/-! ## Whole runs -/

theorem run_append (before after : List Action) (s : InMemory) :
    run p (before ++ after) s = run p after (run p before s) := List.foldl_append

theorem trace_append (before after : List Action) (s : InMemory) :
    trace p (before ++ after) s = trace p before s ++ trace p after (run p before s) := by
  induction before generalizing s with
  | nil => rfl
  | cons a rest ih =>
    show _ :: trace p (rest ++ after) (act p s a) = _
    rw [ih]
    rfl

theorem mem_trace_iff {actions : List Action} :
    ∀ {s : InMemory}, m ∈ trace p actions s ↔
      ∃ before a after, actions = before ++ a :: after ∧ m = ⟨run p before s, a⟩ := by
  induction actions with
  | nil =>
    intro s
    simp [trace]
  | cons a rest ih =>
    intro s
    rw [trace, List.mem_cons, ih]
    constructor
    · rintro (rfl | ⟨before, b, after, rfl, rfl⟩)
      · exact ⟨[], a, rest, rfl, rfl⟩
      · exact ⟨a :: before, b, after, rfl, rfl⟩
    · rintro ⟨before, b, after, hactions, rfl⟩
      cases before with
      | nil =>
        cases hactions
        exact .inl rfl
      | cons _ before =>
        cases hactions
        exact .inr ⟨before, b, after, rfl, rfl⟩

theorem run_invariant {P : Repository → Prop}
    (hfresh : ∀ branches sha, P (.fresh branches sha)) (hfork : ∀ r, P r → P r.fork)
    (hchange : ∀ m path r r', Change p m path r r' → P r → P r') {actions : List Action} :
    ∀ {s : InMemory}, (∀ path r, s.repos.get? path = some r → P r) →
      ∀ path r, (run p actions s).repos.get? path = some r → P r := by
  induction actions with
  | nil => exact fun h => h
  | cons a rest ih =>
    intro s hs
    refine ih fun path r hr => ?_
    have hfate := fate p ⟨s, a⟩ path
    rw [show (Moment.after p ⟨s, a⟩).repos.get? path = some r from hr] at hfate
    cases hfate with
    | made _ _ => exact hfresh _ _
    | forked _ hsource => exact hfork _ (hs _ _ hsource)
    | changed hget h => exact hchange _ _ _ _ h (hs _ _ hget)

theorem outlives_cons {a : Action} {rest : List Action} (h : Outlives p path (a :: rest) s) :
    ¬ Moment.Ends p path ⟨s, a⟩ ∧ Outlives p path rest (act p s a) :=
  ⟨h _ List.mem_cons_self, fun m hm => h m (List.mem_cons_of_mem _ hm)⟩

theorem outlives_append {before after : List Action} (h : Outlives p path (before ++ after) s) :
    Outlives p path before s ∧ Outlives p path after (run p before s) := by
  unfold Outlives at h ⊢
  rw [trace_append] at h
  exact List.forall_mem_append.mp h

theorem outlived {R : Repository → Repository → Prop} (hrefl : ∀ r, R r r)
    (htrans : ∀ r r' r'', R r r' → R r' r'' → R r r'')
    (hchange : ∀ m r r', Change p m path r r' → R r r') {actions : List Action} :
    ∀ {s : InMemory} {r : Repository}, Outlives p path actions s →
      s.repos.get? path = some r →
      ∃ r', (run p actions s).repos.get? path = some r' ∧ R r r' := by
  induction actions with
  | nil => exact fun {_ r} _ hget => ⟨r, hget, hrefl r⟩
  | cons a rest ih =>
    intro s r houtlives hget
    obtain ⟨hends, hrest⟩ := outlives_cons houtlives
    obtain ⟨r', hget', h⟩ := change_of_outlived hends hget
    obtain ⟨r'', hget'', h'⟩ := ih hrest hget'
    exact ⟨r'', hget'', htrans _ _ _ (hchange _ _ _ h) h'⟩

/-- What holds of the empty run, and after one more action exactly if `P` holds of that moment, holds
of every beginning of a run exactly if `P` holds throughout. By induction on the beginning, from its
end. -/
theorem throughout_iff {Q : List Action → Prop} {P : Moment → Prop} {actions : List Action}
    (hnil : Q [])
    (hstep : ∀ before a after, actions = before ++ a :: after → Q before →
      (Q (before ++ [a]) ↔ P ⟨run p before s, a⟩)) :
    (∀ before after, actions = before ++ after → Q before) ↔
      ∀ m ∈ trace p actions s, P m := by
  constructor
  · intro hall m hm
    obtain ⟨before, a, after, hactions, rfl⟩ := mem_trace_iff.mp hm
    have hnext : Q (before ++ [a]) := hall (before ++ [a]) after (by rw [hactions, List.append_cons])
    exact (hstep before a after hactions (hall before (a :: after) hactions)).mp hnext
  · intro hthroughout before
    induction before using List.reverseRecOn with
    | nil => exact fun _ _ => hnil
    | append_singleton before a ih =>
      intro after hactions
      have hsplit : actions = before ++ a :: after := by rw [hactions, ← List.append_cons]
      exact (hstep before a after hsplit (ih (a :: after) hsplit)).mpr
        (hthroughout _ (mem_trace_iff.mpr ⟨before, a, after, hsplit, rfl⟩))

/-! ## What is kept unless -/

def Everywhere (P : Repository → Prop) (s : InMemory) : Prop :=
  ∀ repo r, s.get? repo = some r → P r

/-- Every new repository has `P`, and a call that succeeds keeps it exactly unless it is one that
`B` holds of. -/
structure KeptUnless (P : Repository → Prop) (B : String → Repository → Forge.Call → Prop) :
    Prop where
  fresh : ∀ branches sha, P (.fresh branches sha)
  fork : ∀ r, P r → P r.fork
  aside : ∀ r hooks reports, P r → P { r with hooks := hooks, reports := reports }
  edit : ∀ {sha repo r call answer r'}, Edit sha repo r call answer r' → P r →
    (P r' ↔ ¬ B sha r call)

namespace KeptUnless

variable {P : Repository → Prop} {B : String → Repository → Forge.Call → Prop}

theorem after_iff (h : KeptUnless P B) (hbefore : Everywhere P m.before) :
    Everywhere P (m.after p) ↔ ∀ repo, ¬ m.Carries p (key repo) B := by
  constructor
  · rintro hafter repo ⟨call, answer, r, hsome, hget, hB⟩
    obtain ⟨_, r', hget', hedit⟩ := edit_of_edit? hsome hget
    exact (h.edit hedit (hbefore repo r hget)).mp (hafter repo r' hget') hB
  · intro hnone repo r hget
    have hfate := fate p m (key repo)
    rw [show (m.after p).repos.get? (key repo) = some r from hget] at hfate
    cases hfate with
    | made _ _ => exact h.fresh _ _
    | forked _ hsource => exact h.fork _ (hbefore _ _ hsource)
    | changed hthere hchange =>
      have hr := hbefore repo _ hthere
      cases hchange with
      | aside => exact h.aside _ _ _ hr
      | edited hsome _ hedit =>
        exact (h.edit hedit hr).mpr fun hB => hnone repo ⟨_, _, _, hsome, hthere, hB⟩

theorem throughout_iff (h : KeptUnless P B) (p : Provider) (actions : List Action) :
    (∀ before after, actions = before ++ after → Everywhere P (run p before {})) ↔
      ∀ m ∈ trace p actions {}, ∀ repo, ¬ m.Carries p (key repo) B := by
  refine InMemory.throughout_iff (Q := fun before => Everywhere P (run p before {})) ?_ ?_
  · intro repo r hnone
    cases hnone
  · intro before a _ _ hbefore
    rw [run_append]
    exact h.after_iff (m := ⟨run p before {}, a⟩) hbefore

end KeptUnless

end InMemory
end ForgeChores
