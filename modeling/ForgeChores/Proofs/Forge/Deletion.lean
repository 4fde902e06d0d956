import ForgeChores.Proofs.Forge.Connected
import ForgeChores.Proofs.Forge.ProjectDeletion
import ForgeChores.Proofs.Text.Search

/-!
# ForgeChores.Proofs.Forge.Deletion

What a deletion may fail with, and what it may remove for good.

A repository that is gone when it is asked for counts as deleted, whoever deleted it. On GitLab
there is one request of which that is not so, and the name by which a deleted project is recognized
may be part of another one.

* `deleteRepository_missing_iff`: a deletion fails because something is not there exactly if GitLab
  reports a deleted project at the first look and has lost it when that is to be removed for good.
* `purges_renamed_iff`: what is removed for good is the deleted project, exactly if no look reports
  a path in which the name of a deleted project stands further on.
-/

namespace ForgeChores

/-! ## Failures -/

/-- The server answers in time that what it was asked for is not there. -/
def Reply.IsMissing (reply : Reply) : Prop :=
  reply.delay < Exchange.requestTimeout ∧ ∃ r, reply.answer = some r ∧ ¬ r.isSuccess = true ∧
    ∀ context, (r.failure context).kind = .notFound

/-- Something that was to be there is not. -/
def FailsMissing {α : Type} (r : Except ForgeError α) : Prop :=
  ∃ e, r = .error e ∧ e.kind = .notFound

theorem Failure.kind_classify (context context' : String) (status : Nat) (message : String) :
    (Failure.classify context status message).kind =
      (Failure.classify context' status message).kind := by
  unfold Failure.classify
  simp only
  repeat' split
  all_goals rfl

theorem Exchange.missing_outcome_iff {context : String} {q : Request} {reply : Reply} :
    FailsMissing (Exchange.outcome context q reply).2 ↔ reply.IsMissing := by
  unfold FailsMissing Exchange.outcome Reply.IsMissing
  by_cases hlate : Exchange.requestTimeout ≤ reply.delay
  · simp [hlate, Nat.not_lt.mpr hlate, ForgeError.kind]
  · simp only [hlate, if_false, Nat.lt_of_not_le hlate, true_and]
    cases reply.answer with
    | none => simp [ForgeError.kind]
    | some r =>
      have hkind : ∀ context', (r.failure context').kind = (r.failure context).kind :=
        fun context' => Failure.kind_classify context' context _ _
      by_cases hr : r.isSuccess = true
      · simp [hr]
      · simp [hr, hkind]

theorem missing_map_iff {α β : Type} {r : Except ForgeError α} {f : α → β} :
    FailsMissing (r.map f) ↔ FailsMissing r := by
  unfold FailsMissing
  cases r with
  | error e => simp [Except.map]
  | ok a => simp [Except.map]

theorem missing_bind_iff {α β : Type} {r : Except ForgeError α} {f : α → Except ForgeError β}
    (hf : ∀ a, ¬ FailsMissing (f a)) : FailsMissing (r >>= f) ↔ FailsMissing r := by
  cases r with
  | error e => simp [FailsMissing, bind, Except.bind]
  | ok a =>
    refine iff_of_false (hf a) ?_
    rintro ⟨e, he, -⟩
    cases he

theorem Response.not_missing_decode {α : Type} {context : String} {d : Json.Decoder α}
    {r : Response} : ¬ FailsMissing (r.decode context d) := by
  unfold decode FailsMissing
  rintro ⟨e, he, hkind⟩
  cases hbody : r.text? with
  | none =>
    rw [hbody] at he
    cases he
    cases hkind
  | some text =>
    rw [hbody] at he
    cases hread : d.read text with
    | none =>
      simp only [hread] at he
      cases he
      cases hkind
    | some a =>
      simp only [hread] at he
      cases he

theorem Http.there_eq_false_iff {result : Except ForgeError Unit} :
    there result = .ok false ↔ FailsMissing result := by
  cases result with
  | ok _ => simp [there, FailsMissing]
  | error e => simp [there, FailsMissing, ForgeError.isNotFound]

theorem not_missing_there {r : Except ForgeError Unit} : ¬ FailsMissing (Http.there r) := by
  rintro ⟨e, he, hkind⟩
  cases r with
  | ok _ => cases he
  | error e' =>
    by_cases hmissing : e'.isNotFound = true
    · simp [Http.there, hmissing] at he
    · simp only [Http.there, if_neg hmissing] at he
      cases he
      exact hmissing (by simp [ForgeError.isNotFound, hkind])

theorem not_missing_isThere {context : String} {q : Request} {x : Exchange} :
    ¬ FailsMissing (Task.ofAttempt (Http.isThere context q) x).result := by
  by_cases hq : q.url.isHttp = true
  · rw [Http.isThere_eq_ask hq, Http.ofAttempt_ask]
    exact not_missing_there
  · have hresult : (Task.ofAttempt (Http.isThere context q) x).result =
        .error (.provider context none ("builder error for url (" ++ q.shownUrl ++ ")")) := by
      unfold Http.isThere Http.sendEmpty
      rw [Http.send_of_not_isHttp hq]
      rfl
    rintro ⟨e, he, hkind⟩
    rw [hresult] at he
    cases he
    cases hkind

theorem not_missing_removal {context : String} {url : Url} {x : Exchange} :
    ¬ FailsMissing (Task.ofAttempt (do
      if ← Http.isThere context (.get url) then Http.isThere context (.delete url)
      else return false) x).result := by
  rintro ⟨e, he, hkind⟩
  rw [Task.ofAttempt_bind, Task.result_bind_eq_error] at he
  -- neither of the two requests fails if the repository is not there
  rcases he with hlook | ⟨isThere, -, hdelete⟩
  · exact not_missing_isThere ⟨e, hlook, hkind⟩
  · cases isThere with
    | true => exact not_missing_isThere ⟨e, hdelete, hkind⟩
    | false => cases hdelete

namespace GitLab

variable {g : GitLab} {project : String} {x : Exchange}

/-- The first look reports a deleted project, and that is gone when it is to be removed. -/
def PurgeMissed (project : String) (x : Exchange) : Prop :=
  (∃ path, Renamed project (x.replyAt 0) path) ∧ (x.replyAt 1).IsMissing

theorem not_purgeMissed (h : ∀ path, ¬ Renamed project (x.replyAt 0) path) :
    ¬ PurgeMissed project x := by
  rintro ⟨⟨path, hrenamed⟩, -⟩
  exact h path hrenamed

theorem Course.missing_iff {steps : List DeletionStep} {r : Except ForgeError Bool}
    (h : Course g project x steps r) : FailsMissing r ↔ PurgeMissed project x := by
  cases h with
  | missing hlooked he =>
    have hnot : ¬ PurgeMissed project x := not_purgeMissed fun _ => not_renamed_of_error hlooked
    simp [FailsMissing, hnot]
  | unknown hlooked he =>
    have hnot : ¬ PurgeMissed project x := not_purgeMissed fun _ => not_renamed_of_error hlooked
    have hkind : ¬ _ = ForgeError.Kind.notFound := fun hkind => he (beq_iff_eq.mpr hkind)
    simp [FailsMissing, hnot, hkind]
  | purged hfound hsoft =>
    have hrenamed : ∃ path, Renamed project (x.replyAt 0) path :=
      ⟨_, (renamed_iff hfound).mpr ⟨hsoft, rfl⟩⟩
    rw [missing_map_iff, purges, missing_map_iff, Exchange.missing_outcome_iff]
    exact (and_iff_right hrenamed).symm
  | kept hfound hsoft hdelete hr =>
    have hnot : ¬ PurgeMissed project x :=
      not_purgeMissed fun _ => not_renamed_of_not_soft hfound hsoft
    have hthere : ¬ FailsMissing r := by
      rw [← hdelete]
      exact not_missing_there
    exact iff_of_false hthere hnot
  | watched hfound hsoft hdelete hwatch hr =>
    have hnot : ¬ PurgeMissed project x :=
      not_purgeMissed fun _ => not_renamed_of_not_soft hfound hsoft
    -- a wait only fails because its time is over
    rcases hr with rfl | ⟨t, rfl⟩
    · simp [FailsMissing, hnot]
    · simp [FailsMissing, hnot, ForgeError.kind]

theorem missing_deleteRepository_iff {repo : String} :
    FailsMissing (g.deleteRepository repo x).result ↔
      g.api.base.isHttp = true ∧ PurgeMissed (g.project repo) x := by
  by_cases hbase : g.api.base.isHttp = true
  · obtain ⟨steps, hcourse, -⟩ := course_deleteRepository hbase repo x
    rw [hcourse.missing_iff]
    simp [hbase]
  · obtain ⟨e, he, hkind⟩ := deleteRepository_of_not_isHttp hbase repo x
    simp [FailsMissing, he, hbase, hkind]

end GitLab

/-! ## All three -/

/-- A deletion fails because something is not there in one case: GitLab reports a deleted project at
the first look and has lost it when that is to be removed for good. -/
theorem deleteRepository_missing_iff (x : Exchange) (repo : String) :
    (∀ g : GitHub, ¬ FailsMissing (g.forge.deleteRepository repo x).result) ∧
    (∀ g : GitLab, FailsMissing (g.forge.deleteRepository repo x).result ↔
      g.api.base.isHttp = true ∧ GitLab.PurgeMissed (g.project repo) x) ∧
    ∀ g : Forgejo, ¬ FailsMissing (g.forge.deleteRepository repo x).result :=
  ⟨fun _ => not_missing_removal, fun _ => GitLab.missing_deleteRepository_iff,
    fun _ => not_missing_removal⟩

/-- A server on which a deleted project is gone once it has been looked at. -/
def lostProject : List Reply :=
  [.prompt [] "\x7b\"id\":1,\"path_with_namespace\":\"o/r-deleted-1\"\x7d",
    ⟨0, some ⟨404, [], some []⟩⟩]

/-- There the deletion fails, because the project is gone. -/
theorem deleteRepository_of_lost :
    FailsMissing (publicGitLab.forge.deleteRepository "o/r" ⟨lostProject, #[]⟩).result := by
  refine GitLab.missing_deleteRepository_iff.mpr ⟨by decide, ⟨"o/r-deleted-1", ?_, ?_⟩, ?_⟩
  · decide
  · rw [GitLab.reports_iff]
    decide +kernel
  · exact ⟨by decide, _, rfl, by decide, fun _ => rfl⟩

/-! ## What is removed for good -/

namespace GitLab

/-- A first delete of the project may have put it at `path`: that is what the project was called,
followed by a marker. -/
def RenamedFrom (project path : String) : Prop :=
  ∃ marker ∈ deletedMarkers, (project ++ marker).toList <+: path.toList

/-- What the project was called and a marker stand somewhere in `path`. -/
def Resembles (project path : String) : Prop :=
  ∃ marker ∈ deletedMarkers, (project ++ marker).toList <:+: path.toList

variable {g : GitLab} {project path : String} {x : Exchange}

theorem Resembles.ne (h : Resembles project path) : path ≠ project := by
  obtain ⟨marker, hmarker, hinfix⟩ := h
  rintro rfl
  -- a marker makes the path longer
  have hpos : ∀ marker ∈ deletedMarkers, 0 < marker.toList.length := by decide
  have := hpos marker hmarker
  have hlength := hinfix.length_le
  rw [String.toList_append, List.length_append] at hlength
  omega

theorem isSoftDeleted_iff : isSoftDeleted project path = true ↔ Resembles project path := by
  have hany : (deletedMarkers.any fun marker => Text.contains path (project ++ marker)) = true ↔
      Resembles project path := by
    rw [List.any_eq_true]
    simp only [Text.contains_iff_isInfix, Resembles]
  unfold isSoftDeleted
  rw [Bool.and_eq_true, hany, bne_iff_ne]
  exact and_iff_right_of_imp Resembles.ne

theorem purges_deleteRepository (g : GitLab) (repo : String) (x : Exchange) :
    ∃ steps, (g.deleteRepository repo x).state =
        x.after (g.deletionRequests (g.project repo) steps) ∧
      ∀ path, .purge path ∈ steps ↔ Reported x steps path ∧ Resembles (g.project repo) path := by
  by_cases hbase : g.api.base.isHttp = true
  · obtain ⟨steps, hcourse, hstate⟩ := course_deleteRepository hbase repo x
    refine ⟨steps, hstate, fun path => ?_⟩
    rw [hcourse.purge_mem_iff, Tells, isSoftDeleted_iff, and_comm]
  · obtain ⟨e, he, -⟩ := deleteRepository_of_not_isHttp hbase repo x
    refine ⟨[], ?_, fun path => ?_⟩
    · rw [he]
      exact x.after_nil.symm
    · simp [Reported]

/-- What is removed for good is what a look reports under a name that resembles that of the deleted
project. So it is the deleted project, exactly if no such name only resembles it. -/
theorem purges_renamed_iff (g : GitLab) (repo : String) (x : Exchange) :
    ∃ steps, (g.forge.deleteRepository repo x).state =
        x.after (g.deletionRequests (g.project repo) steps) ∧
      (∀ path, .purge path ∈ steps ↔ Reported x steps path ∧ Resembles (g.project repo) path) ∧
      ((∀ path, .purge path ∈ steps → RenamedFrom (g.project repo) path) ↔
        ¬ ∃ path, Reported x steps path ∧ Resembles (g.project repo) path ∧
          ¬ RenamedFrom (g.project repo) path) := by
  obtain ⟨steps, hstate, hpurge⟩ := purges_deleteRepository g repo x
  refine ⟨steps, hstate, hpurge, ?_⟩
  constructor
  · rintro hall ⟨path, hreported, hresembles, hnot⟩
    exact hnot (hall path ((hpurge path).mpr ⟨hreported, hresembles⟩))
  · intro hnone path hpath
    obtain ⟨hreported, hresembles⟩ := (hpurge path).mp hpath
    exact Classical.byContradiction fun hnot => hnone ⟨path, hreported, hresembles, hnot⟩

end GitLab

/-- A server that moves a project into another group and reports it from there. -/
def strayProject : List Reply :=
  [.prompt [] "\x7b\"id\":1,\"path_with_namespace\":\"x/o/r-deleted-1\"\x7d",
    ⟨0, some ⟨202, [], some []⟩⟩]

/-- There another group's project is removed for good. -/
theorem deleteRepository_of_stray :
    .delete (publicGitLab.permanentUrl "x/o/r-deleted-1") ∈
        (publicGitLab.forge.deleteRepository "o/r" ⟨strayProject, #[]⟩).state.sent ∧
      ¬ GitLab.RenamedFrom (publicGitLab.project "o/r") "x/o/r-deleted-1" := by
  have hrenamed : GitLab.Renamed (publicGitLab.project "o/r")
      ((Exchange.mk strayProject #[]).replyAt 0) "x/o/r-deleted-1" := by
    refine ⟨by decide, ?_⟩
    rw [GitLab.reports_iff]
    decide +kernel
  refine ⟨?_, ?_⟩
  · obtain ⟨steps, hcourse, hstate⟩ := GitLab.course_deleteRepository (g := publicGitLab)
      (by decide) "o/r" ⟨strayProject, #[]⟩
    obtain rfl := hcourse.of_renamed hrenamed
    show _ ∈ (publicGitLab.deleteRepository "o/r" _).state.sent
    rw [hstate]
    simp [Exchange.after, GitLab.deletionRequests, GitLab.deletionRequest, GitLab.permanentUrl_eq]
  · unfold GitLab.RenamedFrom
    decide

end ForgeChores
