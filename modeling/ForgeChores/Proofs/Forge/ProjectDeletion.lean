import ForgeChores.Forge.GitLab
import ForgeChores.Proofs.Http.Asking
import ForgeChores.Proofs.Url.Query

/-!
# ForgeChores.Proofs.Forge.ProjectDeletion

What GitLab is asked for when a project is deleted, step by step.

A project is looked at, deleted, and looked at again until it is gone; a look that reports it under
the name of a deleted project is followed by a request to remove that for good. `Course` says which
steps may be taken and what comes of them, `Watch` which ones while the deletion is waited for, and
`Vigil` what comes of such a wait and when.

* `vigil_poll`, `vigil_awaitDeletion`: a wait is a vigil, check by check.
* `course_deleteRepository`: a deletion takes one of these courses.
* `Course.purge_mem_iff`: what is removed for good is what a look that is not the last step reports
  to have been renamed.

A look may be cut off, and then nothing follows it: a check that is cut off has used up its budget,
which reaches up to the deadline.
-/

namespace ForgeChores

namespace GitLab

/-! ## The steps -/

/-- What a deletion asks for. -/
inductive DeletionStep where
  | look
  | delete
  /-- Removes for good what is at `path`. -/
  | purge (path : String)

/-- Where the project at `path` is removed for good. The query has to name it once more and say so. -/
def purgeUrl (g : GitLab) (path : String) : Url :=
  (g.api.projectUrl path []).asking
    ("full_path=" ++ String.ofList (Percent.formEncode path) ++ "&permanently_remove=true")

theorem permanentUrl_eq (g : GitLab) (path : String) : g.permanentUrl path = g.purgeUrl path := by
  have hplain : ∀ name ∈ ["full_path", "permanently_remove", "true"],
      String.ofList (Percent.formEncode name) = name := by decide
  rw [permanentUrl, Url.addQueries_two, hplain "full_path" (by simp),
    hplain "permanently_remove" (by simp), hplain "true" (by simp), String.append_assoc]
  rfl

def deletionRequest (g : GitLab) (project : String) : DeletionStep → Request
  | .look => .get (g.api.projectUrl project [])
  | .delete => .delete (g.api.projectUrl project [])
  | .purge path => .delete (g.purgeUrl path)

def deletionRequests (g : GitLab) (project : String) (steps : List DeletionStep) : List Request :=
  steps.map (g.deletionRequest project)

/-! What the replies to the steps come to. -/

def looked (g : GitLab) (project : String) (reply : Reply) : Except ForgeError Project :=
  (Exchange.outcome (deleteContext project) (g.deletionRequest project .look) reply).2 >>= fun r =>
    r.decode (deleteContext project) Project.decoder

def deletes (g : GitLab) (project : String) (reply : Reply) : Except ForgeError Bool :=
  Http.there ((Exchange.outcome (deleteContext project) (g.deletionRequest project .delete)
    reply).2.map fun _ => ())

def purges (g : GitLab) (path : String) (reply : Reply) : Except ForgeError Unit :=
  (Exchange.outcome ("permanently delete project " ++ path) (.delete (g.purgeUrl path))
    reply).2.map fun _ => ()

/-- The reply to a look reports a project at `path`. -/
def Reports (reply : Reply) (path : String) : Prop :=
  ∃ found, reply.read? Project.decoder = some found ∧ found.path = path

/-- The reply to a look reports the project under the name of a deleted one. -/
def Renamed (project : String) (reply : Reply) (path : String) : Prop :=
  isSoftDeleted project path = true ∧ Reports reply path

/-- The steps of one check that is not cut off before its look is answered. -/
inductive Check (project : String) (reply : Reply) : List DeletionStep → Prop where
  | quiet : (∀ path, ¬ Renamed project reply path) → Check project reply [.look]
  | purge {path : String} : Renamed project reply path → Check project reply [.look, .purge path]

/-- The steps of a wait until the project is gone. -/
inductive Watch (g : GitLab) (project : String) : Exchange → List DeletionStep → Prop where
  | cutOff {x : Exchange} : Watch g project x [.look]
  | last {x : Exchange} {steps : List DeletionStep} : Check project (x.replyAt 0) steps →
      Watch g project x steps
  | next {x : Exchange} {steps rest : List DeletionStep} : Check project (x.replyAt 0) steps →
      Watch g project (x.after (g.deletionRequests project steps)) rest →
      Watch g project x (steps ++ rest)

/-- The steps of one check that is given time enough, and what it comes to for the wait. -/
inductive Probe (g : GitLab) (project : String) (x : Exchange) :
    List DeletionStep → Option Unit → Prop where
  | missing {e : ForgeError} : g.looked project (x.replyAt 0) = .error e → e.isNotFound = true →
      Probe g project x [.look] (some ())
  | unknown {e : ForgeError} : g.looked project (x.replyAt 0) = .error e → ¬ e.isNotFound = true →
      Probe g project x [.look] none
  | kept {found : Project} : g.looked project (x.replyAt 0) = .ok found →
      ¬ isSoftDeleted project found.path = true → Probe g project x [.look] none
  | purged {found : Project} : g.looked project (x.replyAt 0) = .ok found →
      isSoftDeleted project found.path = true → g.purges found.path (x.replyAt 1) = .ok () →
      Probe g project x [.look, .purge found.path] (some ())
  | refused {found : Project} {e : ForgeError} : g.looked project (x.replyAt 0) = .ok found →
      isSoftDeleted project found.path = true → g.purges found.path (x.replyAt 1) = .error e →
      Probe g project x [.look, .purge found.path] none

/-- The steps of a wait until the project is gone, what comes of it and after which time. -/
inductive Vigil (g : GitLab) (project : String) (o : WaitOptions) :
    Exchange → List DeletionStep → Except WaitTimeout Unit → Nat → Prop where
  | gone {x : Exchange} {steps : List DeletionStep} {time : Nat} :
      Probe g project x steps (some ()) → Vigil g project o x steps (.ok ()) time
  | timeUp {x : Exchange} {steps : List DeletionStep} {t : WaitTimeout} {time : Nat} :
      steps = [.look] ∨ Check project (x.replyAt 0) steps → Wait.IsOver o time t.attempts →
      Vigil g project o x steps (.error t) time
  | again {x : Exchange} {steps rest : List DeletionStep} {r : Except WaitTimeout Unit}
      {time : Nat} : Probe g project x steps none →
      Vigil g project o (x.after (g.deletionRequests project steps)) rest r time →
      Vigil g project o x (steps ++ rest) r time

/-- The steps of a deletion, and what comes of them. -/
inductive Course (g : GitLab) (project : String) (x : Exchange) :
    List DeletionStep → Except ForgeError Bool → Prop where
  | missing {e : ForgeError} : g.looked project (x.replyAt 0) = .error e → e.isNotFound = true →
      Course g project x [.look] (.ok false)
  | unknown {e : ForgeError} : g.looked project (x.replyAt 0) = .error e → ¬ e.isNotFound = true →
      Course g project x [.look] (.error e)
  | purged {found : Project} : g.looked project (x.replyAt 0) = .ok found →
      isSoftDeleted project found.path = true →
      Course g project x [.look, .purge found.path]
        ((g.purges found.path (x.replyAt 1)).map fun _ => true)
  | kept {found : Project} {r : Except ForgeError Bool} :
      g.looked project (x.replyAt 0) = .ok found → ¬ isSoftDeleted project found.path = true →
      g.deletes project (x.replyAt 1) = r → r ≠ .ok true → Course g project x [.look, .delete] r
  | watched {found : Project} {steps : List DeletionStep} {r : Except ForgeError Bool} :
      g.looked project (x.replyAt 0) = .ok found → ¬ isSoftDeleted project found.path = true →
      g.deletes project (x.replyAt 1) = .ok true →
      Watch g project (x.after (g.deletionRequests project [.look, .delete])) steps →
      (r = .ok true ∨ ∃ t, r = .error (.timeout t)) →
      Course g project x (.look :: .delete :: steps) r

variable {g : GitLab} {project path : String} {x : Exchange}

theorem looked_eq_ok_iff {reply : Reply} {found : Project} :
    g.looked project reply = .ok found ↔ reply.read? Project.decoder = some found :=
  Exchange.decoded_outcome_eq_ok_iff

theorem reports_iff {reply : Reply} :
    Reports reply path ↔ (reply.read? Project.decoder).map Project.path = some path :=
  Option.map_eq_some_iff.symm

theorem renamed_iff {reply : Reply} {found : Project} (h : g.looked project reply = .ok found) :
    Renamed project reply path ↔ isSoftDeleted project path = true ∧ found.path = path := by
  unfold Renamed Reports
  rw [looked_eq_ok_iff.mp h]
  simp

theorem not_renamed_of_error {reply : Reply} {e : ForgeError}
    (h : g.looked project reply = .error e) : ¬ Renamed project reply path := by
  rintro ⟨-, found, hfound, -⟩
  have hok : g.looked project reply = .ok found := looked_eq_ok_iff.mpr hfound
  rw [h] at hok
  cases hok

theorem not_renamed_of_not_soft {reply : Reply} {found : Project}
    (h : g.looked project reply = .ok found) (hsoft : ¬ isSoftDeleted project found.path = true) :
    ¬ Renamed project reply path := by
  intro hrenamed
  obtain ⟨hsoft', rfl⟩ := (renamed_iff h).mp hrenamed
  exact hsoft hsoft'

/-! ## One check -/

theorem caught_getProject (hbase : g.api.base.isHttp = true) :
    (g.getProject (deleteContext project) project).caught =
      Http.ask (g.deletionRequest project .look) fun reply => .ok (g.looked project reply) := by
  have hask : g.getProject (deleteContext project) project =
      Http.ask (g.deletionRequest project .look) (g.looked project) :=
    Http.sendJson_eq_ask ((Client.isHttp_projectUrl _ _ _).trans hbase)
  rw [hask, Http.caught_ask]

theorem deletePermanently_eq_ask (hbase : g.api.base.isHttp = true) (path : String) :
    g.deletePermanently path = Http.ask (.delete (g.purgeUrl path)) (g.purges path) := by
  have hq : (Request.delete (g.purgeUrl path)).url.isHttp = true :=
    (Client.isHttp_projectUrl g.api path []).trans hbase
  rw [deletePermanently, permanentUrl_eq]
  exact Http.sendEmpty_eq_ask hq

theorem run_deleted_of_late (hbase : g.api.base.isHttp = true) {b : Nat}
    (h : ¬ Exchange.waited (x.replyAt 0) ≤ b) :
    (g.deleted (deleteContext project) project).run (some b) x =
      ⟨.cutOff rfl, b, x.after (g.deletionRequests project [.look])⟩ := by
  unfold deleted
  rw [caught_getProject hbase]
  exact Http.run_ask_bind_of_late h

theorem Probe.check {steps : List DeletionStep} {r : Option Unit} (h : Probe g project x steps r) :
    Check project (x.replyAt 0) steps := by
  cases h with
  | missing hfound _ => exact .quiet fun path => not_renamed_of_error hfound
  | unknown hfound _ => exact .quiet fun path => not_renamed_of_error hfound
  | kept hfound hsoft => exact .quiet fun path => not_renamed_of_not_soft hfound hsoft
  | purged hfound hsoft _ => exact .purge ((renamed_iff hfound).mpr ⟨hsoft, rfl⟩)
  | refused hfound hsoft _ => exact .purge ((renamed_iff hfound).mpr ⟨hsoft, rfl⟩)

/-- A check whose look is answered in time is a probe, unless its second request is cut off. -/
theorem probe_of_deleted (hbase : g.api.base.isHttp = true) (project : String) {b : Nat}
    (h : Exchange.waited (x.replyAt 0) ≤ b) :
    let t := (g.deleted (deleteContext project) project).run (some b) x
    ∃ steps, t.state = x.after (g.deletionRequests project steps) ∧
      (Probe g project x steps (Wait.found? t.result) ∨
        Check project (x.replyAt 0) steps ∧ t.result.isCutOff = true) := by
  unfold deleted
  rw [caught_getProject hbase, Http.run_ask_bind h]
  cases hfound : g.looked project (x.replyAt 0) with
  | error e =>
    refine ⟨[.look], ?_⟩
    by_cases he : e.isNotFound = true
    · simp only [if_pos he]
      exact ⟨rfl, .inl (.missing hfound he)⟩
    · simp only [if_neg he]
      exact ⟨rfl, .inl (.unknown hfound he)⟩
  | ok found =>
    by_cases hsoft : isSoftDeleted project found.path = true
    · have hreply : (x.after [g.deletionRequest project .look]).replyAt 0 = x.replyAt 1 :=
        x.replyAt_after _ 0
      refine ⟨[.look, .purge found.path], ?_⟩
      simp only [if_pos hsoft, deletePermanently_eq_ask hbase]
      rw [Http.ask_bind_pure]
      refine ⟨by rw [Http.state_run_ask, Exchange.after_after]; rfl, ?_⟩
      rw [Http.run_ask, hreply]
      by_cases hlimit : Exchange.waited (x.replyAt 1) ≤ b - Exchange.waited (x.replyAt 0)
      · refine .inl ?_
        cases hpurge : g.purges found.path (x.replyAt 1) with
        | ok _ =>
          simp only [Attempt.stepEnding, if_pos hlimit, Except.map]
          exact .purged hfound hsoft hpurge
        | error e =>
          simp only [Attempt.stepEnding, if_pos hlimit, Except.map]
          exact .refused hfound hsoft hpurge
      · rw [Attempt.stepEnding_of_late hlimit]
        exact .inr ⟨.purge ((renamed_iff hfound).mpr ⟨hsoft, rfl⟩), rfl⟩
    · refine ⟨[.look], ?_⟩
      simp only [if_neg hsoft]
      exact ⟨rfl, .inl (.kept hfound hsoft)⟩

/-! ## The wait -/

/-- A round takes the steps of a probe, unless it is cut off, which ends the wait. -/
theorem round_deleted (hbase : g.api.base.isHttp = true) {describe : ForgeError → String}
    {o : WaitOptions} {p q : Wait.Progress Exchange} {r : Option Unit}
    (hround : Wait.round describe o (g.deleted (deleteContext project) project) p = (r, q)) :
    ∃ steps, q.state = p.state.after (g.deletionRequests project steps) ∧
      (Probe g project p.state steps r ∨
        r = none ∧ (steps = [.look] ∨ Check project (p.state.replyAt 0) steps) ∧
          o.deadline ≤ q.elapsed) := by
  have hstate := Wait.state_of_round hround
  have hfound : r = _ := (congrArg Prod.fst hround).symm.trans (Wait.round_fst ..)
  have hcut := Wait.deadline_le_of_cutOff hround
  by_cases htime : Exchange.waited (p.state.replyAt 0) ≤ Wait.budget o p.elapsed
  · obtain ⟨steps, hsteps, hprobe | ⟨hcheck, hended⟩⟩ := probe_of_deleted hbase project htime
    · exact ⟨steps, hstate.trans hsteps, .inl (hfound ▸ hprobe)⟩
    · have hnone : r = none := hfound.trans (Wait.found?_of_isCutOff hended)
      exact ⟨steps, hstate.trans hsteps, .inr ⟨hnone, .inr hcheck, hcut hended⟩⟩
  · have hlate : (g.deleted (deleteContext project) project).run _ p.state = _ :=
      run_deleted_of_late hbase htime
    rw [hlate] at hstate hfound hcut
    exact ⟨[.look], hstate, .inr ⟨hfound, .inl rfl, hcut rfl⟩⟩

theorem vigil_poll (hbase : g.api.base.isHttp = true) (project : String)
    (describe : ForgeError → String) (what : String) (o : WaitOptions) (x : Exchange) :
    let t := Wait.poll describe what o (g.deleted (deleteContext project) project) x
    ∃ steps, Vigil g project o x steps t.result t.elapsed ∧
      t.state = x.after (g.deletionRequests project steps) := by
  refine Wait.poll_timed_induction (motive := fun p t => ∃ steps,
    Vigil g project o p.state steps t.result t.elapsed ∧
      t.state = p.state.after (g.deletionRequests project steps)) ?_ ?_ ?_ x
  · intro p q a hround
    obtain ⟨steps, hstate, hprobe | ⟨hnone, -⟩⟩ := round_deleted hbase hround
    · exact ⟨steps, .gone hprobe, hstate⟩
    · cases hnone
  · intro p q hround hover
    obtain ⟨steps, hstate, hprobe | ⟨-, hcut, -⟩⟩ := round_deleted hbase hround
    · exact ⟨steps, .timeUp (.inr hprobe.check) hover, hstate⟩
    · exact ⟨steps, .timeUp hcut hover, hstate⟩
  · intro p q t hround htime ⟨rest, hrest, hs⟩
    obtain ⟨steps, hstate, hprobe | ⟨-, -, hdeadline⟩⟩ := round_deleted hbase hround
    · have hpaused : (q.paused o).state = p.state.after (g.deletionRequests project steps) := hstate
      rw [hpaused] at hrest hs
      refine ⟨steps ++ rest, .again hprobe hrest, ?_⟩
      rw [hs, Exchange.after_after, deletionRequests, deletionRequests, ← List.map_append]
      rfl
    · exact absurd hdeadline (Nat.not_le_of_lt htime)

theorem Vigil.watch {o : WaitOptions} {steps : List DeletionStep} {r : Except WaitTimeout Unit}
    {time : Nat} (h : Vigil g project o x steps r time) : Watch g project x steps := by
  induction h with
  | gone hprobe => exact .last hprobe.check
  | timeUp hsteps _ =>
    rcases hsteps with rfl | hcheck
    · exact .cutOff
    · exact .last hcheck
  | again hprobe _ ih => exact .next hprobe.check ih

/-- Waits until the project is gone. -/
def awaitDeletion (g : GitLab) (project : String) : Task Exchange ForgeError Unit :=
  Wait.on ("project " ++ project ++ " to be deleted") g.timeouts.delete
    (g.deleted (deleteContext project) project)

theorem vigil_awaitDeletion (hbase : g.api.base.isHttp = true) (project : String) (x : Exchange) :
    let t := g.awaitDeletion project x
    ∃ steps, t.state = x.after (g.deletionRequests project steps) ∧
      (t.result = .ok () ∧ Vigil g project g.timeouts.delete x steps (.ok ()) t.elapsed ∨
        ∃ d, t.result = .error (.timeout d) ∧
          Vigil g project g.timeouts.delete x steps (.error d) t.elapsed) := by
  obtain ⟨steps, hvigil, hstate⟩ := vigil_poll hbase project ForgeError.message
    ("project " ++ project ++ " to be deleted") g.timeouts.delete x
  have hresult : (g.awaitDeletion project x).result = (Wait.poll ForgeError.message
    ("project " ++ project ++ " to be deleted") g.timeouts.delete
    (g.deleted (deleteContext project) project) x).result.mapError .timeout := rfl
  refine ⟨steps, hstate, ?_⟩
  rw [hresult]
  generalize (Wait.poll ForgeError.message ("project " ++ project ++ " to be deleted")
    g.timeouts.delete (g.deleted (deleteContext project) project) x).result = r at hvigil ⊢
  cases r with
  | ok _ => exact .inl ⟨rfl, hvigil⟩
  | error d => exact .inr ⟨d, rfl, hvigil⟩

/-! ## The whole deletion -/

theorem isThere_eq_deletes (hbase : g.api.base.isHttp = true) :
    Http.isThere (deleteContext project) (.delete (g.api.projectUrl project [])) =
      Http.ask (g.deletionRequest project .delete) (g.deletes project) :=
  Http.isThere_eq_ask ((Client.isHttp_projectUrl _ _ _).trans hbase)

/-- The first look reports the project under its own name, and the delete of it succeeds. -/
def Granted (g : GitLab) (project : String) (x : Exchange) : Prop :=
  ∃ found, g.looked project (x.replyAt 0) = .ok found ∧
    ¬ isSoftDeleted project found.path = true ∧ g.deletes project (x.replyAt 1) = .ok true

/-- A project that has been deleted is waited for. -/
theorem deleteRepository_of_granted (hbase : g.api.base.isHttp = true) {repo : String}
    (hgranted : g.Granted (g.project repo) x) :
    let t := g.awaitDeletion (g.project repo)
      (x.after (g.deletionRequests (g.project repo) [.look, .delete]))
    g.deleteRepository repo x = ⟨t.result.map fun _ => true,
      Exchange.waited (x.replyAt 0) + (Exchange.waited (x.replyAt 1) + t.elapsed), t.state⟩ := by
  obtain ⟨found, hfound, hsoft, hdelete⟩ := hgranted
  have hreply : (x.after [g.deletionRequest (g.project repo) .look]).replyAt 0 = x.replyAt 1 :=
    x.replyAt_after _ 0
  have hask : Task.ofAttempt (Http.ask (g.deletionRequest (g.project repo) .delete)
      (g.deletes (g.project repo))) (x.after [g.deletionRequest (g.project repo) .look]) = _ :=
    Http.ofAttempt_ask _
  rw [hreply, hdelete, Exchange.after_after] at hask
  unfold deleteRepository
  simp only [Task.liftM_eq_ofAttempt, caught_getProject hbase, isThere_eq_deletes hbase]
  rw [Http.ask_ok_bind, hfound]
  simp only [if_neg hsoft]
  rw [Task.bind_of_ok hask]
  simp only [if_true, Task.bind_pure]
  rfl

theorem course_of_granted (hbase : g.api.base.isHttp = true) (hgranted : g.Granted project x) :
    let t := g.awaitDeletion project (x.after (g.deletionRequests project [.look, .delete]))
    ∃ steps, Course g project x steps (t.result.map fun _ => true) ∧
      t.state = x.after (g.deletionRequests project steps) := by
  obtain ⟨found, hfound, hsoft, hdelete⟩ := hgranted
  obtain ⟨steps, hstate, hended⟩ := g.vigil_awaitDeletion hbase project
    (x.after (g.deletionRequests project [.look, .delete]))
  rw [Exchange.after_after] at hstate
  intro t
  rcases hended with ⟨hok, hvigil⟩ | ⟨d, herror, hvigil⟩
  · rw [show t.result = _ from hok]
    exact ⟨_, .watched hfound hsoft hdelete hvigil.watch (.inl rfl), hstate⟩
  · rw [show t.result = _ from herror]
    exact ⟨_, .watched hfound hsoft hdelete hvigil.watch (.inr ⟨d, rfl⟩), hstate⟩

theorem course_deleteRepository (hbase : g.api.base.isHttp = true) (repo : String) (x : Exchange) :
    ∃ steps, Course g (g.project repo) x steps (g.deleteRepository repo x).result ∧
      (g.deleteRepository repo x).state =
        x.after (g.deletionRequests (g.project repo) steps) := by
  by_cases hgranted : g.Granted (g.project repo) x
  · rw [deleteRepository_of_granted hbase hgranted]
    exact course_of_granted hbase hgranted
  unfold deleteRepository
  simp only [Task.liftM_eq_ofAttempt, caught_getProject hbase, isThere_eq_deletes hbase,
    deletePermanently_eq_ask hbase]
  rw [Http.ask_ok_bind]
  -- the second request meets the second reply
  have hreply : (x.after [g.deletionRequest (g.project repo) .look]).replyAt 0 = x.replyAt 1 :=
    x.replyAt_after _ 0
  cases hfound : g.looked (g.project repo) (x.replyAt 0) with
  | error e =>
    by_cases he : e.isNotFound = true
    · simp only [if_pos he]
      exact ⟨_, .missing hfound he, rfl⟩
    · simp only [if_neg he]
      exact ⟨_, .unknown hfound he, rfl⟩
  | ok found =>
    by_cases hsoft : isSoftDeleted (g.project repo) found.path = true
    · simp only [if_pos hsoft, Task.bind_pure, Http.ofAttempt_ask, hreply, Exchange.after_after]
      exact ⟨_, .purged hfound hsoft, rfl⟩
    · simp only [if_neg hsoft]
      cases hdelete : g.deletes (g.project repo) (x.replyAt 1) with
      | error e =>
        have hask : g.deletes (g.project repo) _ = .error e := hreply ▸ hdelete
        rw [(Http.ask_bind_of_error hask).1, (Http.ask_bind_of_error hask).2, Exchange.after_after]
        exact ⟨_, .kept hfound hsoft hdelete (fun h => by cases h), rfl⟩
      | ok isDeleted =>
        have hask : g.deletes (g.project repo) _ = .ok isDeleted := hreply ▸ hdelete
        cases isDeleted with
        | false =>
          rw [(Http.ask_bind_of_ok hask).1, (Http.ask_bind_of_ok hask).2, Exchange.after_after]
          exact ⟨_, .kept hfound hsoft hdelete (fun h => by cases h), rfl⟩
        | true => exact absurd ⟨found, hfound, hsoft, hdelete⟩ hgranted

theorem Course.of_renamed {steps : List DeletionStep} {r : Except ForgeError Bool}
    (h : Course g project x steps r) (hrenamed : Renamed project (x.replyAt 0) path) :
    steps = [.look, .purge path] := by
  cases h with
  | missing hlooked _ => exact absurd hrenamed (not_renamed_of_error hlooked)
  | unknown hlooked _ => exact absurd hrenamed (not_renamed_of_error hlooked)
  | purged hfound _ =>
    obtain ⟨-, rfl⟩ := (renamed_iff hfound).mp hrenamed
    rfl
  | kept hfound hsoft _ _ => exact absurd hrenamed (not_renamed_of_not_soft hfound hsoft)
  | watched hfound hsoft _ _ _ => exact absurd hrenamed (not_renamed_of_not_soft hfound hsoft)

theorem deleteRepository_of_not_isHttp (hbase : ¬ g.api.base.isHttp = true) (repo : String)
    (x : Exchange) : ∃ e, g.deleteRepository repo x = ⟨.error e, 0, x⟩ ∧ e.kind = .provider := by
  have hlook : ¬ (Request.get (g.api.projectUrl (g.project repo) [])).url.isHttp = true := by
    intro hhttp
    exact hbase ((Client.isHttp_projectUrl _ _ _).symm.trans hhttp)
  unfold deleteRepository getProject Http.sendJson
  rw [Http.send_of_not_isHttp hlook]
  exact ⟨_, rfl, rfl⟩

/-! ## What is removed for good -/

/-- A look that is not the last step is told of a project at `path`. -/
def Reported (x : Exchange) (steps : List DeletionStep) (path : String) : Prop :=
  ∃ n, steps[n]? = some .look ∧ n + 1 < steps.length ∧ Reports (x.replyAt n) path

/-- Such a look is told of the project under the name of a deleted one. -/
def Tells (project : String) (x : Exchange) (steps : List DeletionStep) (path : String) : Prop :=
  isSoftDeleted project path = true ∧ Reported x steps path

theorem Renamed.unique {reply : Reply} {path' : String} (h : Renamed project reply path)
    (h' : Renamed project reply path') : path = path' := by
  obtain ⟨-, found, hfound, rfl⟩ := h
  obtain ⟨-, found', hfound', rfl⟩ := h'
  rw [hfound] at hfound'
  cases hfound'
  rfl

theorem reported_cons {step : DeletionStep} {steps : List DeletionStep} (q : Request) :
    Reported x (step :: steps) path ↔
      step = .look ∧ steps ≠ [] ∧ Reports (x.replyAt 0) path ∨
        Reported (x.after [q]) steps path := by
  have hshift : ∀ n, (x.after [q]).replyAt n = x.replyAt (n + 1) :=
    congrFun (x.replyAt_after_one q)
  constructor
  · rintro ⟨n, hn, hlength, hreports⟩
    cases n with
    | zero =>
      refine .inl ⟨Option.some.inj hn, ?_, hreports⟩
      rintro rfl
      exact absurd hlength (by simp)
    | succ n =>
      refine .inr ⟨n, hn, Nat.lt_of_succ_lt_succ hlength, ?_⟩
      rw [hshift]
      exact hreports
  · rintro (⟨rfl, hne, hreports⟩ | ⟨n, hn, hlength, hreports⟩)
    · exact ⟨0, rfl, Nat.succ_lt_succ (List.length_pos_iff.mpr hne), hreports⟩
    · rw [hshift] at hreports
      exact ⟨n + 1, hn, Nat.succ_lt_succ hlength, hreports⟩

theorem not_tells_nil : ¬ Tells project x [] path := by
  rintro ⟨-, n, hn, -, -⟩
  cases hn

theorem not_tells_one {step : DeletionStep} : ¬ Tells project x [step] path := by
  rintro ⟨-, n, -, hlength, -⟩
  exact absurd hlength (by simp)

theorem tells_look (g : GitLab) {steps : List DeletionStep} :
    Tells project x (.look :: steps) path ↔
      steps ≠ [] ∧ Renamed project (x.replyAt 0) path ∨
        Tells project (x.after (g.deletionRequests project [.look])) steps path := by
  unfold Tells Renamed
  rw [reported_cons (g.deletionRequest project .look), and_or_left]
  refine or_congr_left ?_
  rw [eq_self, true_and, and_left_comm]

theorem tells_other (g : GitLab) {step : DeletionStep} {steps : List DeletionStep}
    (hstep : step ≠ .look) :
    Tells project x (step :: steps) path ↔
      Tells project (x.after (g.deletionRequests project [step])) steps path := by
  unfold Tells
  rw [reported_cons (g.deletionRequest project step)]
  simp [hstep, deletionRequests]

/-- A check that is not cut off does what its look says. -/
theorem Check.tells_append {steps : List DeletionStep} (h : Check project (x.replyAt 0) steps)
    (g : GitLab) (rest : List DeletionStep) :
    Tells project x (steps ++ rest) path ↔
      .purge path ∈ steps ∨ Tells project (x.after (g.deletionRequests project steps)) rest path := by
  cases h with
  | quiet hquiet =>
    rw [List.singleton_append, tells_look g]
    simp [hquiet path]
  | purge hrenamed =>
    rename_i path'
    have hpath : Renamed project (x.replyAt 0) path ↔ path = path' := by
      constructor
      · exact fun h => h.unique hrenamed
      · rintro rfl
        exact hrenamed
    rw [List.cons_append, List.singleton_append, tells_look g, tells_other g (by simp),
      Exchange.after_after, hpath]
    simp [deletionRequests]

theorem Check.purge_mem_iff {steps : List DeletionStep} (h : Check project (x.replyAt 0) steps)
    (g : GitLab) : .purge path ∈ steps ↔ Tells project x steps path := by
  have htells : Tells project x (steps ++ []) path ↔ _ := h.tells_append g []
  rw [List.append_nil] at htells
  rw [htells]
  simp [not_tells_nil]

theorem Watch.purge_mem_iff {steps : List DeletionStep} (h : Watch g project x steps) :
    .purge path ∈ steps ↔ Tells project x steps path := by
  induction h with
  | cutOff => simp [not_tells_one]
  | last hcheck => exact hcheck.purge_mem_iff g
  | next hcheck _ ih => rw [List.mem_append, hcheck.tells_append g, ih]

/-- What is removed for good is what a look that is not the last step reports. -/
theorem Course.purge_mem_iff {steps : List DeletionStep} {r : Except ForgeError Bool}
    (h : Course g project x steps r) : .purge path ∈ steps ↔ Tells project x steps path := by
  cases h with
  | missing _ _ => simp [not_tells_one]
  | unknown _ _ => simp [not_tells_one]
  | purged hfound hsoft =>
    have hcheck : Check project (x.replyAt 0) _ := .purge ((renamed_iff hfound).mpr ⟨hsoft, rfl⟩)
    exact hcheck.purge_mem_iff g
  | kept hfound hsoft _ _ =>
    rw [tells_look g]
    simp [not_tells_one, not_renamed_of_not_soft hfound hsoft]
  | watched hfound hsoft _ hwatch _ =>
    rw [tells_look g, tells_other g (by simp), Exchange.after_after]
    simp [not_renamed_of_not_soft hfound hsoft, hwatch.purge_mem_iff, deletionRequests]

end GitLab
end ForgeChores
