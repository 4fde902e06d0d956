import ForgeChores.Proofs.InMemory.Runs

/-!
# ForgeChores.Proofs.InMemory.PullRequests

The pull requests that a repository in memory keeps.

* `PullsSound` holds of every repository that a run leads to (`sound_run`): the numbers are those
  that were given out, no branch has two open pull requests, and none is open with a merge commit.
* `Pull.Later` is the whole life of a pull request: it is closed once, perhaps by a merge, and never
  touched again (`later_run`).
* The numbers that a run gives out are consecutive (`made_eq_range`).

`pullRequests_sound` puts this together for the states and the continuations of any run.
-/

namespace ForgeChores
namespace InMemory

/-- What holds of the pull requests that a repository keeps. -/
structure Repository.PullsSound (r : Repository) : Prop where
  number_eq : ∀ n q, r.pulls.get? n = some q → q.pull.number = n
  one_le : ∀ n q, r.pulls.get? n = some q → 1 ≤ n
  lt_next : ∀ n q, r.pulls.get? n = some q → n < r.nextPull
  open_unique : ∀ n n' q q', r.pulls.get? n = some q → r.pulls.get? n' = some q' →
    q.isOpen = true → q'.isOpen = true → q.pull.sourceBranch = q'.pull.sourceBranch → n = n'
  unmerged : ∀ n q, r.pulls.get? n = some q → q.isOpen = true → q.pull.mergeCommitSha = ""
  next_pos : 1 ≤ r.nextPull

/-- A pull request stays as it is, or it is open and then closed, with a merge commit if it was
merged. -/
inductive Pull.Later : Pull → Pull → Prop where
  | same (q : Pull) : Later q q
  | closed {pull : PullRequest} (sha : String) :
      Later ⟨pull, true⟩ ⟨{ pull with mergeCommitSha := sha }, false⟩

/-- The number under which a pull request is made in the repository under `path`. -/
def Moment.madePull? (p : Provider) (path : String) (m : Moment) : Option Nat :=
  match m.edit? p path with
  | some (.createPullRequest .., .pull pull) => some pull.number
  | _ => none

variable {p : Provider} {s : InMemory} {m : Moment} {path repo sha : String} {r r' : Repository}

theorem mem_openPulls {n : Nat} {q : Pull} (hget : r.pulls.get? n = some q)
    (hopen : q.isOpen = true) : q.pull ∈ r.openPulls :=
  List.mem_map.mpr ⟨q, List.mem_filter.mpr ⟨Table.mem_values_of_get? hget, hopen⟩, rfl⟩

theorem Pull.Later.trans {q q' q'' : Pull} (h : q.Later q') (h' : q'.Later q'') : q.Later q'' := by
  cases h with
  | same => exact h'
  | closed sha =>
    cases h' with
    | same => exact .closed sha

theorem Pull.Later.eq_of_closed {q q' : Pull} (h : q.Later q') (hclosed : q.isOpen = false) :
    q' = q := by
  cases h with
  | same => rfl
  | closed => cases hclosed

theorem Pull.Later.headSha_eq {q q' : Pull} (h : q.Later q') : q'.pull.headSha = q.pull.headSha := by
  cases h <;> rfl

/-! ## One change -/

namespace Repository.PullsSound

theorem fresh (branches : List String) (sha : String) :
    (Repository.fresh branches sha).PullsSound := by
  constructor <;> simp [Repository.fresh]

theorem fork (r : Repository) : r.fork.PullsSound := by
  constructor <;> simp [Repository.fork]

/-- Only the pull requests and the next number matter. -/
theorem congr (h : r.PullsSound) (hpulls : r'.pulls = r.pulls) (hnext : r'.nextPull = r.nextPull) :
    r'.PullsSound := by
  obtain ⟨hnumber, hone, hlt, hunique, hunmerged, hpos⟩ := h
  constructor
  all_goals simp only [hpulls, hnext]
  all_goals assumption

/-- A pull request from a branch that has no open one. -/
theorem add {head base tip : String} (h : r.PullsSound)
    (hnone : ∀ pull ∈ r.openPulls, pull.sourceBranch ≠ head)
    (hpulls : r'.pulls = r.pulls.insert r.nextPull ⟨⟨r.nextPull, head, base, tip, ""⟩, true⟩)
    (hnext : r'.nextPull = r.nextPull + 1) : r'.PullsSound := by
  have hother : ∀ n q, r.pulls.get? n = some q → q.isOpen = true → q.pull.sourceBranch ≠ head :=
    fun n q hget hopen => hnone _ (mem_openPulls hget hopen)
  constructor
  all_goals simp only [hpulls, hnext, Table.get?_insert]
  · intro n q hget
    split at hget
    · rename_i hn
      cases hget
      exact hn
    · exact h.number_eq n q hget
  · intro n q hget
    split at hget
    · rename_i hn
      exact hn ▸ h.next_pos
    · exact h.one_le n q hget
  · intro n q hget
    split at hget
    · omega
    · have := h.lt_next n q hget
      omega
  · intro n n' q q' hget hget' hopen hopen' hsource
    split at hget
    · split at hget'
      · omega
      · cases hget
        exact absurd hsource.symm (hother n' q' hget' hopen')
    · split at hget'
      · cases hget'
        exact absurd hsource (hother n q hget hopen)
      · exact h.open_unique n n' q q' hget hget' hopen hopen' hsource
  · intro n q hget hopen
    split at hget
    · cases hget
      rfl
    · exact h.unmerged n q hget hopen
  · exact Nat.le_add_left 1 _

/-- One pull request is closed, for good or once more. -/
theorem close {number : Nat} {q closed : Pull} (h : r.PullsSound)
    (hget : r.pulls.get? number = some q) (hpulls : r'.pulls = r.pulls.insert number closed)
    (hnext : r'.nextPull = r.nextPull) (hnumber : closed.pull.number = q.pull.number)
    (hclosed : closed.isOpen = false) : r'.PullsSound := by
  -- an open pull request was there before, under the same number
  have hopen : ∀ n q', (r.pulls.insert number closed).get? n = some q' → q'.isOpen = true →
      r.pulls.get? n = some q' := by
    intro n q' hn hopen
    rw [Table.get?_insert] at hn
    split at hn
    · cases hn
      rw [hclosed] at hopen
      cases hopen
    · exact hn
  have hthere : ∀ n q', (r.pulls.insert number closed).get? n = some q' →
      ∃ q'', r.pulls.get? n = some q'' ∧ q'.pull.number = q''.pull.number := by
    intro n q' hn
    rw [Table.get?_insert] at hn
    split at hn
    · rename_i hsame
      cases hn
      exact ⟨q, hsame ▸ hget, hnumber⟩
    · exact ⟨q', hn, rfl⟩
  constructor
  all_goals simp only [hpulls, hnext]
  · intro n q' hn
    obtain ⟨q'', hget', hsame⟩ := hthere n q' hn
    rw [hsame]
    exact h.number_eq n q'' hget'
  · intro n q' hn
    obtain ⟨q'', hget', -⟩ := hthere n q' hn
    exact h.one_le n q'' hget'
  · intro n q' hn
    obtain ⟨q'', hget', -⟩ := hthere n q' hn
    exact h.lt_next n q'' hget'
  · intro n n' q' q'' hn hn' ho ho' hsource
    exact h.open_unique n n' q' q'' (hopen n q' hn ho) (hopen n' q'' hn' ho') ho ho' hsource
  · exact fun n q' hn ho => h.unmerged n q' (hopen n q' hn ho) ho
  · exact h.next_pos

end Repository.PullsSound

theorem sound_of_change (h : Change p m path r r') (hr : r.PullsSound) : r'.PullsSound := by
  cases h with
  | aside => exact hr.congr rfl rfl
  | edited _ _ hedit =>
    cases hedit with
    | createPull _ _ hnone => exact hr.add hnone rfl rfl
    | merge hget => exact hr.close hget rfl rfl rfl rfl
    | close hget => exact hr.close hget rfl rfl rfl rfl
    | listCommitStatuses => exact hr.congr (pulls_nextReport r _) (nextPull_nextReport r _)
    | _ => exact hr.congr rfl rfl

theorem later_of_change (h : Change p m path r r') (hr : r.PullsSound) {n : Nat} {q : Pull}
    (hget : r.pulls.get? n = some q) : ∃ q', r'.pulls.get? n = some q' ∧ q.Later q' := by
  cases h with
  | aside => exact ⟨q, hget, .same q⟩
  | edited _ _ hedit =>
    cases hedit with
    | createPull _ _ _ =>
      have hne : r.nextPull ≠ n := Nat.ne_of_gt (hr.lt_next n q hget)
      exact ⟨q, by simp only [Table.get?_insert, if_neg hne, hget], .same q⟩
    | @merge number pull hnumber =>
      simp only [Table.get?_insert]
      by_cases hn : number = n
      · subst hn
        rw [hget] at hnumber
        cases hnumber
        exact ⟨_, if_pos rfl, .closed _⟩
      · exact ⟨q, by rw [if_neg hn, hget], .same q⟩
    | @close number q' hnumber =>
      simp only [Table.get?_insert]
      by_cases hn : number = n
      · subst hn
        rw [hget] at hnumber
        cases hnumber
        obtain ⟨pull, isOpen⟩ := q
        refine ⟨_, if_pos rfl, ?_⟩
        cases isOpen with
        | true => exact .closed pull.mergeCommitSha
        | false => exact .same _
      · exact ⟨q, by rw [if_neg hn, hget], .same q⟩
    | listCommitStatuses => exact ⟨q, by rw [pulls_nextReport, hget], .same q⟩
    | _ => exact ⟨q, hget, .same q⟩

/-- A pull request is made under the next number, and nothing else moves that number on. -/
theorem made_of_change (h : Change p m path r r') :
    (m.madePull? p path).toList = List.range' r.nextPull (m.madePull? p path).toList.length ∧
      r'.nextPull = r.nextPull + (m.madePull? p path).toList.length := by
  cases h with
  | aside _ _ hnone => simp [Moment.madePull?, hnone]
  | edited hsome _ hedit =>
    cases hedit <;> simp [Moment.madePull?, hsome, Repository.removeHook]

/-! ## Runs -/

theorem sound_run {actions : List Action} (hget : (run p actions {}).repos.get? path = some r) :
    r.PullsSound := by
  refine run_invariant .fresh (fun r _ => .fork r) (fun _ _ _ _ h hr => sound_of_change h hr)
    ?_ path r hget
  intro path r hnone
  cases hnone

theorem later_run {actions : List Action} (houtlives : Outlives p path actions s)
    (hget : s.repos.get? path = some r) (hr : r.PullsSound) :
    ∃ r', (run p actions s).repos.get? path = some r' ∧ r'.PullsSound ∧
      ∀ n q, r.pulls.get? n = some q → ∃ q', r'.pulls.get? n = some q' ∧ q.Later q' := by
  -- soundness is carried along: without it the next number might be taken
  obtain ⟨r', hget', hlater⟩ := outlived
    (R := fun r r' => r.PullsSound → r'.PullsSound ∧
      ∀ n q, r.pulls.get? n = some q → ∃ q', r'.pulls.get? n = some q' ∧ q.Later q')
    (fun r hr => ⟨hr, fun n q hq => ⟨q, hq, .same q⟩⟩)
    (fun r r' r'' h h' hr => by
      obtain ⟨hr', hlater⟩ := h hr
      obtain ⟨hr'', hlater'⟩ := h' hr'
      refine ⟨hr'', fun n q hq => ?_⟩
      obtain ⟨q', hq', hqq'⟩ := hlater n q hq
      obtain ⟨q'', hq'', hqq''⟩ := hlater' n q' hq'
      exact ⟨q'', hq'', hqq'.trans hqq''⟩)
    (fun m r r' h hr => ⟨sound_of_change h hr, fun n q hq => later_of_change h hr hq⟩)
    houtlives hget
  exact ⟨r', hget', hlater hr⟩

theorem made_eq_range {actions : List Action} :
    ∀ {s : InMemory} {r : Repository}, Outlives p path actions s → s.repos.get? path = some r →
      ∃ count, (trace p actions s).filterMap (·.madePull? p path) =
        List.range' r.nextPull count := by
  induction actions with
  | nil => exact fun _ _ => ⟨0, rfl⟩
  | cons a rest ih =>
    intro s r houtlives hget
    obtain ⟨hends, hrest⟩ := outlives_cons houtlives
    obtain ⟨r', hget', hchange⟩ := change_of_outlived hends hget
    obtain ⟨count, hcount⟩ := ih hrest hget'
    obtain ⟨hmade, hnext⟩ := made_of_change hchange
    refine ⟨(Moment.madePull? p path ⟨s, a⟩).toList.length + count, ?_⟩
    have hcons : (trace p (a :: rest) s).filterMap (·.madePull? p path) =
        (Moment.madePull? p path ⟨s, a⟩).toList ++
          (trace p rest (act p s a)).filterMap (·.madePull? p path) := by
      rw [trace, List.filterMap_cons]
      cases Moment.madePull? p path ⟨s, a⟩ <;> rfl
    rw [hcons, hcount, hnext, hmade]
    simp only [List.length_range', List.range'_append_1]

/-- In every state of a run, the pull requests of every repository are sound, and in every
continuation that the repository outlives the numbers given out increase, and a pull request that is
closed stays closed, with the merge commit that it has. -/
theorem pullRequests_sound (p : Provider) (before after : List Action) (path : String)
    {r : Repository} (hget : (run p before {}).repos.get? path = some r) :
    r.PullsSound ∧
      (Outlives p path after (run p before {}) →
        ((trace p after (run p before {})).filterMap (·.madePull? p path)).Pairwise (· < ·) ∧
        ∃ r', (run p (before ++ after) {}).repos.get? path = some r' ∧
          ∀ n q, r.pulls.get? n = some q → ∃ q', r'.pulls.get? n = some q' ∧
            (q.isOpen = false → q'.isOpen = false) ∧
            (q.pull.mergeCommitSha ≠ "" →
              q'.pull.mergeCommitSha = q.pull.mergeCommitSha)) := by
  have hr := sound_run hget
  refine ⟨hr, fun houtlives => ⟨?_, ?_⟩⟩
  · obtain ⟨count, hcount⟩ := made_eq_range houtlives hget
    rw [hcount]
    exact List.pairwise_lt_range'
  · obtain ⟨r', hget', -, hlater⟩ := later_run houtlives hget hr
    rw [← run_append] at hget'
    refine ⟨r', hget', fun n q hq => ?_⟩
    obtain ⟨q', hq', hqq'⟩ := hlater n q hq
    refine ⟨q', hq', fun hclosed => by rw [hqq'.eq_of_closed hclosed, hclosed], fun hmerged => ?_⟩
    -- a pull request with a merge commit is closed
    have hclosed : q.isOpen = false := by
      cases hopen : q.isOpen with
      | false => rfl
      | true => exact absurd (hr.unmerged n q hq hopen) hmerged
    rw [hqq'.eq_of_closed hclosed]

/-- A pull request is opened and merged. -/
def mergedPull : List Action :=
  [.withRepository "o/r" ["main", "feat"],
    .call (.createPullRequest "o/r" "" "" "feat" "main"),
    .call (.mergePullRequest "o/r" 1)]

/-- Another one is opened for the same branch, and both are closed. -/
def closedPulls : List Action :=
  [.call (.createPullRequest "o/r" "" "" "feat" "main"),
    .call (.closePullRequest "o/r" 1),
    .call (.closePullRequest "o/r" 2)]

theorem pullRequests_sound_merged :
    ∃ r q, (run .gitHub mergedPull {}).repos.get? "o/r" = some r ∧ r.PullsSound ∧
      r.pulls.get? 1 = some q ∧ q.pull.mergeCommitSha = commitHash 2 ∧
      Outlives .gitHub "o/r" closedPulls (run .gitHub mergedPull {}) ∧
      ((trace .gitHub closedPulls (run .gitHub mergedPull {})).filterMap
        (·.madePull? .gitHub "o/r")).Pairwise (· < ·) ∧
      ∃ r' q', (run .gitHub (mergedPull ++ closedPulls) {}).repos.get? "o/r" = some r' ∧
        r'.pulls.get? 1 = some q' ∧ q'.isOpen = false ∧ q'.pull.mergeCommitSha = commitHash 2 := by
  obtain ⟨r, hr, q, hq, hclosed, hsha⟩ :
      ∃ r, (run .gitHub mergedPull {}).repos.get? "o/r" = some r ∧ ∃ q,
        r.pulls.get? 1 = some q ∧ q.isOpen = false ∧ q.pull.mergeCommitSha = commitHash 2 :=
    ⟨_, rfl, _, rfl, rfl, rfl⟩
  have houtlives : Outlives .gitHub "o/r" closedPulls (run .gitHub mergedPull {}) := by
    simp [Outlives, closedPulls, trace, Moment.Ends]
  obtain ⟨hsound, hafter⟩ := pullRequests_sound .gitHub mergedPull closedPulls "o/r" hr
  obtain ⟨hpairwise, r', hr', hkept⟩ := hafter houtlives
  obtain ⟨q', hq', hopen, hmerged⟩ := hkept 1 q hq
  have hnonempty : q.pull.mergeCommitSha ≠ "" := by
    rw [hsha]
    decide
  exact ⟨r, q, hr, hsound, hq, hsha, houtlives, hpairwise, r', q', hr', hq', hopen hclosed,
    (hmerged hnonempty).trans hsha⟩

end InMemory
end ForgeChores
