import ForgeChores.Proofs.InMemory.Isolation
import ForgeChores.Proofs.Wait.Foretold

/-!
# ForgeChores.Proofs.InMemory.Scripts

Reports that are set beforehand. A script is taken report by report, one for each listing of the
commit's statuses, and its last report stays. `Scripted` says how far a script has been taken.

* `script?_act`: nothing but a listing of that commit takes a report, as long as the repository is
  there and its script is not set anew.
* `listing_foretold`: so the reports to come are known.
* `statusConclusion_scripted`: what is listed next, and what a wait for a status comes to.
-/

namespace ForgeChores
namespace InMemory

/-! ## Scripts -/

namespace Script

variable {script : List (List CommitStatus)}

/-- What is left of a script after `n` reports. -/
def left (script : List (List CommitStatus)) (n : Nat) : List (List CommitStatus) :=
  script.drop (min n (script.length - 1))

/-- The report after `n` others. -/
def report (script : List (List CommitStatus)) (n : Nat) : List CommitStatus :=
  script.getD (min n (script.length - 1)) []

theorem left_zero : left script 0 = script := by
  simp [left]

/-- As long as another report follows, the first one is gone after it is taken. -/
theorem left_cases (hscript : script ≠ []) (n : Nat) :
    (left script n = [report script n] ∧ left script (n + 1) = left script n) ∨
    ∃ next rest, left script n = report script n :: next :: rest ∧
      left script (n + 1) = next :: rest := by
  have hlength := List.length_pos_iff.mpr hscript
  have hin : min n (script.length - 1) < script.length := by omega
  have hleft : left script n = report script n :: script.drop (min n (script.length - 1) + 1) := by
    rw [left, report, List.drop_eq_getElem_cons hin, List.getD_eq_getElem?_getD,
      List.getElem?_eq_getElem hin, Option.getD_some]
  cases hrest : script.drop (min n (script.length - 1) + 1) with
  | nil =>
    have hlast := List.drop_eq_nil_iff.mp hrest
    refine .inl ⟨by rw [hleft, hrest], ?_⟩
    unfold left
    congr 1
    omega
  | cons next rest =>
    have hmore : min n (script.length - 1) + 1 < script.length := by
      by_contra hend
      rw [List.drop_eq_nil_of_le (by omega)] at hrest
      cases hrest
    refine .inr ⟨next, rest, by rw [hleft, hrest], ?_⟩
    rw [← hrest, left]
    congr 1
    omega

end Script

/-- What is left of the script for a commit in the repository under `path`. -/
def script? (s : InMemory) (path commit : String) : Option (List (List CommitStatus)) :=
  (s.repos.get? path).bind (·.reports.get? commit)

/-- Of the script for a commit `n` reports are taken, and no operation is set to fail. -/
structure Scripted (path commit : String) (script : List (List CommitStatus)) (n : Nat)
    (s : InMemory) : Prop where
  failing : s.failing = none
  left : s.script? path commit = some (Script.left script n)

/-! ## Listings -/

variable {α : Type} {p : Provider} {s : InMemory} {path repo commit sha : String}
  {script : List (List CommitStatus)} {n : Nat}

theorem script?_of_get? {r : Repository} (h : s.repos.get? path = some r) :
    s.script? path commit = r.reports.get? commit := by
  rw [script?, h, Option.bind_some]

theorem nextReport_of_left (hscript : script ≠ []) {r : Repository}
    (h : r.reports.get? commit = some (Script.left script n)) :
    (r.nextReport commit).1 = Script.report script n ∧
      (r.nextReport commit).2.reports.get? commit = some (Script.left script (n + 1)) := by
  unfold Repository.nextReport
  rw [h]
  rcases Script.left_cases hscript n with ⟨hleft, hnext⟩ | ⟨next, rest, hleft, hnext⟩
  · rw [hnext, hleft]
    exact ⟨rfl, by rw [h, hleft]⟩
  · rw [hnext, hleft]
    exact ⟨rfl, by rw [Table.get?_insert, if_pos rfl]⟩

theorem reports_nextReport_of_ne {other : String} (h : other ≠ commit) (r : Repository) :
    (r.nextReport other).2.reports.get? commit = r.reports.get? commit := by
  unfold Repository.nextReport
  split
  · rfl
  · rfl
  · rfl
  · exact Table.get?_insert_of_ne h

/-- A listing answers with the next report. -/
theorem run_listCommitStatuses (hscript : script ≠ [])
    (h : Scripted (key repo) commit script n s) (limit : Option Nat) :
    ∃ s', Scripted (key repo) commit script (n + 1) s' ∧
      s'.log = s.log.push (.listCommitStatuses (key repo) commit) ∧
      (listCommitStatuses repo commit).run limit s = ⟨.done (Script.report script n), 0, s'⟩ := by
  obtain ⟨r, hget, hreports⟩ := Option.bind_eq_some_iff.mp h.left
  obtain ⟨hanswer, hnext⟩ := nextReport_of_left hscript hreports
  have hperform : perform (.listCommitStatuses (key repo) commit) (fun _ =>
      within ("list statuses for " ++ commit ++ " in " ++ key repo) repo fun r =>
        .ok (r.nextReport commit)) s =
      (.ok (Script.report script n),
        { s with
          log := s.log.push (.listCommitStatuses (key repo) commit)
          repos := s.repos.insert (key repo) (r.nextReport commit).2 }) := by
    simp only [perform, failureOf, h.failing, within, hget, ← hanswer]
    rfl
  refine ⟨{ s with
      log := s.log.push (.listCommitStatuses (key repo) commit)
      repos := s.repos.insert (key repo) (r.nextReport commit).2 }, ⟨h.failing, ?_⟩, rfl, ?_⟩
  · rw [script?_of_get? (r := (r.nextReport commit).2) (by rw [Table.get?_insert, if_pos rfl])]
    exact hnext
  · simp only [listCommitStatuses, attempt, Attempt.step, hperform]
    cases limit with
    | none => rfl
    | some b => rw [Attempt.stepEnding, if_pos (Nat.zero_le b)]

/-- The stages of a script from `n` on, with a log that began as `log`. -/
def Listed (repo commit : String) (script : List (List CommitStatus)) (n : Nat)
    (log : Array Operation) (j : Nat) (s : InMemory) : Prop :=
  Scripted (key repo) commit script (n + j) s ∧
    s.log = log ++ Array.replicate j (.listCommitStatuses (key repo) commit)

theorem listing_foretold (hscript : script ≠ []) (log : Array Operation) :
    Wait.Foretold (listCommitStatuses repo commit) (Listed repo commit script n log)
      fun j => Script.report script (n + j) := by
  rintro j s ⟨hs, hlog⟩ limit
  obtain ⟨s', hs', hlog', hrun⟩ := run_listCommitStatuses hscript hs limit
  refine ⟨s', ⟨hs', ?_⟩, hrun⟩
  rw [hlog', hlog, Array.replicate_succ, Array.append_push]

/-! ## Everything else -/

/-- The commit whose reports an action asks for or sets, under its repository's full path. -/
def Action.reports? : Action → Option (String × String)
  | .call (.listCommitStatuses repo commit) => some (key repo, commit)
  | .call (.statusConclusion repo commit _ _) => some (key repo, commit)
  | .scriptStatuses repo commit _ => some (key repo, commit)
  | _ => none

/-- Whether an action is a listing of the statuses of the commit. -/
def Action.lists (path commit : String) : Action → Bool
  | .call (.listCommitStatuses repo other) => key repo = path ∧ other = commit
  | _ => false

theorem reports_of_edit {call : Forge.Call} {answer : Forge.Answer} {r r' : Repository}
    (h : Edit sha repo r call answer r')
    (hcall : (Action.call call).reports? ≠ some (key repo, commit)) :
    r'.reports.get? commit = r.reports.get? commit := by
  cases h with
  | @listCommitStatuses other =>
    refine reports_nextReport_of_ne (fun hsame => ?_) r
    exact hcall (congrArg (fun c => some (key repo, c)) hsame)
  | _ => rfl

theorem listing_keeps {other : String} (h : other ≠ commit) :
    (listCommitStatuses repo other).Leads fun s s' =>
      s'.script? (key repo) commit = s.script? (key repo) commit := by
  refine Attempt.leads_step fun s => ?_
  generalize hafter : perform _ _ s = after
  have hperformed := performed (.listCommitStatuses (key repo) other) (fun _ =>
    within ("list statuses for " ++ other ++ " in " ++ key repo) repo fun r =>
      .ok (r.nextReport other)) s
  rw [hafter] at hperformed
  cases hperformed with
  | refused _ => rfl
  | failed _ _ =>
    simp only [script?, repos_advance]
  | done _ hchange =>
    obtain ⟨r, r', hget, hnext, rfl⟩ := within_eq_ok hchange
    have hr' : r' = (r.nextReport other).2 := by rw [Except.ok.inj hnext]
    subst hr'
    rw [script?_of_get? hget,
      script?_of_get? (r := (r.nextReport other).2) (by rw [Table.get?_insert, if_pos rfl])]
    exact reports_nextReport_of_ne h r

/-- A script is kept by every operation but a listing of its commit, while its repository is
there. -/
theorem script?_operation {call : Forge.Call} (hop : isOperation call = true)
    (hends : ¬ Moment.Ends p (key call.changes) ⟨s, .call call⟩)
    (hcall : (Action.call call).reports? ≠ some (key call.changes, commit)) :
    ((forge p).answer call s).state.script? (key call.changes) commit =
      s.script? (key call.changes) commit := by
  have houtcome := outcome p call s
  rw [script?]
  generalize ((forge p).answer call s).state.repos = repos at houtcome ⊢
  generalize hresult : ((forge p).answer call s).result = result at houtcome
  cases houtcome with
  | failed => rfl
  | edited hget hedit =>
    rw [hedit.changes] at hcall ⊢
    rw [Table.get?_insert, if_pos rfl, script?_of_get? hget]
    exact reports_of_edit hedit hcall
  | @forked source target r _ htarget =>
    -- a new fork has no script, and no repository was there before
    show ((Table.get? _ (key target)).bind _) = (s.get? target).bind _
    rw [Table.get?_insert, if_pos rfl, htarget]
    rfl
  | deleted => exact absurd ⟨rfl, by rw [hresult]; rfl⟩ hends
  | waited _ => cases hop

theorem script?_answer {call : Forge.Call} (hends : ¬ Moment.Ends p path ⟨s, .call call⟩)
    (hcall : (Action.call call).reports? ≠ some (path, commit)) :
    ((forge p).answer call s).state.script? path commit = s.script? path commit := by
  by_cases hpath : key call.changes = path
  · subst hpath
    by_cases hop : isOperation call = true
    · exact script?_operation hop hends hcall
    · cases call with
      | statusConclusion repo other name o =>
        have hother : other ≠ commit := by
          rintro rfl
          exact hcall rfl
        exact statusConclusion_keeps (listing_keeps hother) p name o s
      | _ => exact absurd rfl hop
  · rw [script?, get?_answer hpath, ← script?]

theorem script?_insert {r r' : Repository} (hget : s.get? repo = some r)
    (hreports : key repo = path → r'.reports.get? commit = r.reports.get? commit) :
    ((s.repos.insert (key repo) r').get? path).bind (·.reports.get? commit) =
      s.script? path commit := by
  rw [Table.get?_insert]
  split
  · rename_i hpath
    rw [Option.bind_some, hreports hpath, ← hpath, script?_of_get? hget]
  · rfl

theorem script?_act {a : Action} (hends : ¬ Moment.Ends p path ⟨s, a⟩)
    (ha : a.reports? ≠ some (path, commit)) :
    (act p s a).script? path commit = s.script? path commit := by
  cases a with
  | call c => exact script?_answer hends ha
  | withRepository repo branches =>
    rw [script?, get?_act fun changed h => ?_, ← script?]
    cases h
    exact hends
  | addWebhook repo url =>
    cases hget : s.get? repo with
    | none => simp only [act, addWebhook, hget, script?]
    | some r =>
      simp only [act, addWebhook, hget]
      exact script?_insert hget fun _ => rfl
  | scriptStatuses repo other reports =>
    cases hget : s.get? repo with
    | none => simp only [act, scriptStatuses, hget]
    | some r =>
      simp only [act, scriptStatuses, hget]
      refine script?_insert hget fun hpath => Table.get?_insert_of_ne ?_
      rintro rfl
      exact ha (by rw [Action.reports?, hpath])
  | _ => rfl

theorem scripted_listing (hscript : script ≠ []) {a : Action} (h : Scripted path commit script n s)
    (ha : a.lists path commit = true) : Scripted path commit script (n + 1) (act p s a) := by
  unfold Action.lists at ha
  split at ha
  · rename_i repo other
    obtain ⟨rfl, rfl⟩ := of_decide_eq_true ha
    obtain ⟨s', hs', -, hrun⟩ := run_listCommitStatuses hscript h none
    show Scripted _ _ _ _ ((Task.ofAttempt (listCommitStatuses repo other) >>= fun l =>
      pure (Forge.Answer.statuses l)) s).state
    rw [Task.bind_pure, Task.ofAttempt, hrun]
    exact hs'
  · cases ha

/-- Over a run a script is taken report by report, one for each listing of its commit. -/
theorem scripted_run (hscript : script ≠ []) {actions : List Action} :
    ∀ {s : InMemory} {n : Nat}, Scripted path commit script n s → Outlives p path actions s →
      (∀ a ∈ actions, a.setsFailure = false) →
      (∀ a ∈ actions, a.lists path commit = true ∨ a.reports? ≠ some (path, commit)) →
      Scripted path commit script (n + actions.countP (·.lists path commit)) (run p actions s) := by
  induction actions with
  | nil => exact fun h _ _ _ => h
  | cons a rest ih =>
    intro s n h houtlives hunset hactions
    obtain ⟨ha, hrest⟩ := List.forall_mem_cons.mp hactions
    obtain ⟨haunset, hunset⟩ := List.forall_mem_cons.mp hunset
    obtain ⟨hends, houtlives⟩ := outlives_cons houtlives
    rw [List.countP_cons]
    cases hlists : a.lists path commit with
    | true =>
      have hnext := ih (scripted_listing hscript h hlists) houtlives hunset hrest
      rwa [Nat.add_assoc, Nat.add_comm 1] at hnext
    | false =>
      have hother : a.reports? ≠ some (path, commit) :=
        ha.resolve_left (by rw [hlists]; exact Bool.false_ne_true)
      exact ih ⟨(failing_act haunset).trans h.failing, (script?_act hends hother).trans h.left⟩
        houtlives hunset hrest

theorem scripted_scriptStatuses (hrepo : s.hasRepository repo = true) (hfailing : s.failing = none) :
    Scripted (key repo) commit script 0 (s.scriptStatuses repo commit script) := by
  obtain ⟨r, hget⟩ := Table.contains_eq_true_iff.mp hrepo
  have hget' : s.get? repo = some r := hget
  simp only [scriptStatuses, hget']
  refine ⟨hfailing, ?_⟩
  rw [script?_of_get? (by rw [Table.get?_insert, if_pos rfl]), Table.get?_insert, if_pos rfl,
    Script.left_zero]

/-- A script is taken report by report, one for each listing of its commit, whatever else is done in
between. So the next listing is known, and so is what a wait for a status comes to: it is read off
the reports that are left, and the wait makes one listing for each of them that it takes. -/
theorem statusConclusion_scripted (p : Provider) (s : InMemory) (repo commit name : String)
    (script : List (List CommitStatus)) (o : WaitOptions) (actions : List Action)
    (hrepo : s.hasRepository repo = true) (hfailing : s.failing = none) (hscript : script ≠ [])
    (hi : 0 < o.interval) (hunset : ∀ a ∈ actions, a.setsFailure = false)
    (hactions : ∀ a ∈ actions,
      a.lists (key repo) commit = true ∨ a.reports? ≠ some (key repo, commit))
    (houtlives : Outlives p (key repo) actions (s.scriptStatuses repo commit script)) :
    let s' := run p actions (s.scriptStatuses repo commit script)
    let taken := actions.countP (·.lists (key repo) commit)
    let seen := fun j => script.getD (min (taken + j) (script.length - 1)) []
    let concluded := Wait.conclusion name o o seen
    ((forge p).answer (.listCommitStatuses repo commit) s').result = .ok (.statuses (seen 0)) ∧
      ((forge p).statusConclusion repo commit name o s').result =
        concluded.1.mapError .timeout ∧
      ((forge p).statusConclusion repo commit name o s').state.log =
        s'.log ++ Array.replicate concluded.2 (.listCommitStatuses (key repo) commit) ∧
      ((forge p).statusConclusion repo commit name o s').state.script? (key repo) commit =
        some (script.drop (min (taken + concluded.2) (script.length - 1))) := by
  intro s' taken seen concluded
  have hstart : Scripted (key repo) commit script 0 (s.scriptStatuses repo commit script) :=
    scripted_scriptStatuses hrepo hfailing
  have hs' : Scripted (key repo) commit script taken s' := by
    have hrun := scripted_run hscript hstart houtlives hunset hactions
    rwa [Nat.zero_add] at hrun
  have hbegin : Listed repo commit script taken s'.log 0 s' := ⟨hs', by simp⟩
  have hforetold : Wait.Foretold (listCommitStatuses repo commit)
      (Listed repo commit script taken s'.log) seen := listing_foretold hscript s'.log
  obtain ⟨hresult, hleft, hlog⟩ := Wait.forStatus_foretold ForgeError.message name hi hi
    hforetold hbegin
  refine ⟨?_, ?_, hlog, hleft.left⟩
  · obtain ⟨s'', -, -, hrun⟩ := run_listCommitStatuses hscript hs' none
    show ((Task.ofAttempt (listCommitStatuses repo commit) >>= fun l =>
      pure (Forge.Answer.statuses l)) s').result = _
    rw [Task.bind_pure, Task.ofAttempt, hrun]
    rfl
  · exact congrArg (Except.mapError ForgeError.timeout) hresult

/-- A build that is not there at first and fails in the end. -/
def failedBuild : List (List CommitStatus) :=
  [[⟨"lint", .success⟩], [⟨"lint", .success⟩, ⟨"build", .pending⟩], [⟨"build", .running⟩],
    [⟨"build", .failure⟩, ⟨"build", .success⟩]]

/-- A listing, and what leaves the script of the commit alone. -/
def aroundBuild : List Action :=
  [.call (.listCommitStatuses " /o/r/ " "c1"), .call (.listCommitStatuses "o/r" "c2"),
    .scriptStatuses "o/r" "c2" [], .call (.createBranch "o/r" "main" "" "feat"),
    .call (.statusConclusion "o/r" "c2" "build" ⟨1, 1⟩)]

def unbuilt : InMemory := withRepository {} "o/r" ["main"]

/-- One report is taken before the wait, and the wait takes the other three. -/
theorem statusConclusion_scripted_build :
    unbuilt.hasRepository "o/r" = true ∧ unbuilt.failing = none ∧ failedBuild ≠ [] ∧
      0 < (WaitOptions.mk 2 3).interval ∧ (∀ a ∈ aroundBuild, a.setsFailure = false) ∧
      (∀ a ∈ aroundBuild, a.lists (key "o/r") "c1" = true ∨ a.reports? ≠ some (key "o/r", "c1")) ∧
      Outlives .gitHub (key "o/r") aroundBuild (unbuilt.scriptStatuses "o/r" "c1" failedBuild) ∧
      ∃ s', s' = run .gitHub aroundBuild (unbuilt.scriptStatuses "o/r" "c1" failedBuild) ∧
        ((forge .gitHub).answer (.listCommitStatuses "o/r" "c1") s').result =
          .ok (.statuses [⟨"lint", .success⟩, ⟨"build", .pending⟩]) ∧
        ((forge .gitHub).statusConclusion "o/r" "c1" "build" ⟨2, 3⟩ s').result = .ok .failure ∧
        ((forge .gitHub).statusConclusion "o/r" "c1" "build" ⟨2, 3⟩ s').state.log =
          s'.log ++ Array.replicate 3 (.listCommitStatuses (key "o/r") "c1") := by
  have hrepo : unbuilt.hasRepository "o/r" = true := by decide
  have hactions : ∀ a ∈ aroundBuild,
      a.lists (key "o/r") "c1" = true ∨ a.reports? ≠ some (key "o/r", "c1") := by decide
  have houtlives : Outlives .gitHub (key "o/r") aroundBuild
      (unbuilt.scriptStatuses "o/r" "c1" failedBuild) := by
    simp [Outlives, aroundBuild, trace, Moment.Ends]
  have htaken : aroundBuild.countP (·.lists (key "o/r") "c1") = 1 := by decide
  have hconcluded : Wait.conclusion "build" ⟨2, 3⟩ ⟨2, 3⟩
      (fun j => failedBuild.getD (min (1 + j) (failedBuild.length - 1)) []) = (.ok .failure, 3) := by
    rfl
  have h := statusConclusion_scripted .gitHub unbuilt "o/r" "c1" "build" failedBuild ⟨2, 3⟩
    aroundBuild hrepo rfl (by decide) (by decide) (by decide) hactions houtlives
  simp only [htaken, hconcluded, Except.mapError] at h
  obtain ⟨hanswer, hresult, hlog, -⟩ := h
  exact ⟨hrepo, rfl, by decide, by decide, by decide, hactions, houtlives, _, rfl, hanswer, hresult,
    hlog⟩

end InMemory
end ForgeChores
