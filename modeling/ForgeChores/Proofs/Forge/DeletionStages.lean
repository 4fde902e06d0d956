import ForgeChores.Proofs.Forge.Deletion

/-!
# ForgeChores.Proofs.Forge.DeletionStages

A GitLab project is deleted in two stages: a delete renames it, and a second one removes it for
good under its new name. In between it is only looked at, so the step before and the reply to it
settle what may be sent next (`Follows`).

* `Vigil.linked`, `Vigil.head`, `Vigil.not_delete`: the steps of a wait follow one another, a look
  comes first, and nothing is deleted but for good.
* `Vigil.concludes`, `Vigil.isOver_of_error`: a wait ends with a reply that shows the project
  gone, or when its time is over.
* `deleteRepository_stages`: what this makes of a whole deletion, and of its three outcomes.
-/

namespace ForgeChores

namespace GitLab

variable {g : GitLab} {project path : String} {x : Exchange} {reply : Reply}

/-! ## Replies -/

theorem missing_looked_iff : FailsMissing (g.looked project reply) ↔ reply.IsMissing := by
  unfold looked
  rw [missing_bind_iff fun _ => Response.not_missing_decode, Exchange.missing_outcome_iff]

theorem missing_of_looked {e : ForgeError} (h : g.looked project reply = .error e)
    (he : e.isNotFound = true) : reply.IsMissing :=
  missing_looked_iff.mp ⟨e, h, beq_iff_eq.mp he⟩

theorem not_missing_of_looked_error {e : ForgeError} (h : g.looked project reply = .error e)
    (he : ¬ e.isNotFound = true) : ¬ reply.IsMissing := by
  intro hmissing
  obtain ⟨e', he', hkind⟩ := missing_looked_iff.mpr hmissing
  rw [h] at he'
  cases he'
  exact he (beq_iff_eq.mpr hkind)

theorem not_missing_of_looked_ok {found : Project} (h : g.looked project reply = .ok found) :
    ¬ reply.IsMissing := by
  intro hmissing
  obtain ⟨e, he, -⟩ := missing_looked_iff.mpr hmissing
  rw [h] at he
  cases he

theorem deletes_eq_true_iff : g.deletes project reply = .ok true ↔ reply.success? ≠ none :=
  Http.there_eq_true_iff.trans Exchange.map_unit_eq_ok_iff

theorem deletes_eq_false_iff : g.deletes project reply = .ok false ↔ reply.IsMissing :=
  Http.there_eq_false_iff.trans (missing_map_iff.trans Exchange.missing_outcome_iff)

theorem purges_eq_ok_iff : g.purges path reply = .ok () ↔ reply.success? ≠ none :=
  Exchange.map_unit_eq_ok_iff

/-! ## What may follow -/

/-- What may follow a step that has met `reply`. -/
inductive Follows (project : String) : DeletionStep → Reply → DeletionStep → Prop where
  | lookAgain {reply : Reply} : ¬ reply.IsMissing → (∀ path, ¬ Renamed project reply path) →
      Follows project .look reply .look
  | delete {reply : Reply} : ¬ reply.IsMissing → (∀ path, ¬ Renamed project reply path) →
      Follows project .look reply .delete
  | purge {reply : Reply} {path : String} : Renamed project reply path →
      Follows project .look reply (.purge path)
  | watch {reply : Reply} : reply.success? ≠ none → Follows project .delete reply .look
  | retry {reply : Reply} {path : String} : reply.success? = none →
      Follows project (.purge path) reply .look

/-- Every step follows the one before. -/
def Linked (project : String) (x : Exchange) (steps : List DeletionStep) : Prop :=
  ∀ n step next, steps[n]? = some step → steps[n + 1]? = some next →
    Follows project step (x.replyAt n) next

theorem linked_one (step : DeletionStep) : Linked project x [step] := by
  intro n step next _ hnext
  cases hnext

theorem linked_cons (g : GitLab) {step next : DeletionStep} {rest : List DeletionStep} :
    Linked project x (step :: next :: rest) ↔ Follows project step (x.replyAt 0) next ∧
      Linked project (x.after (g.deletionRequests project [step])) (next :: rest) := by
  have hshift : ∀ n, (x.after (g.deletionRequests project [step])).replyAt n = x.replyAt (n + 1) :=
    congrFun (x.replyAt_after_one _)
  constructor
  · intro h
    refine ⟨h 0 step next rfl rfl, fun n a b ha hb => ?_⟩
    rw [hshift]
    exact h (n + 1) a b ha hb
  · rintro ⟨hfirst, hrest⟩ n a b ha hb
    cases n with
    | zero =>
      cases ha
      cases hb
      exact hfirst
    | succ n =>
      rw [← hshift]
      exact hrest n a b ha hb

/-- The reply to such a step shows that the project has gone. -/
def Concludes : DeletionStep → Reply → Prop
  | .look, reply => reply.IsMissing
  | .delete, _ => False
  | .purge _, reply => reply.success? ≠ none

/-! ## The wait -/

section

variable {o : WaitOptions} {steps : List DeletionStep} {r : Except WaitTimeout Unit} {time : Nat}

theorem Check.head (h : Check project reply steps) : ∃ rest, steps = .look :: rest := by
  cases h with
  | quiet _ => exact ⟨_, rfl⟩
  | purge _ => exact ⟨_, rfl⟩

theorem Check.not_delete (h : Check project reply steps) : .delete ∉ steps := by
  cases h with
  | quiet _ => simp
  | purge _ => simp

theorem Check.linked (g : GitLab) (h : Check project (x.replyAt 0) steps) :
    Linked project x steps := by
  cases h with
  | quiet _ => exact linked_one _
  | purge hrenamed =>
    exact (linked_cons g).mpr ⟨.purge hrenamed, linked_one _⟩

theorem Vigil.head (h : Vigil g project o x steps r time) : ∃ rest, steps = .look :: rest := by
  induction h with
  | gone hprobe => exact hprobe.check.head
  | timeUp hsteps _ =>
    rcases hsteps with rfl | hcheck
    · exact ⟨[], rfl⟩
    · exact hcheck.head
  | again hprobe _ _ =>
    obtain ⟨rest, rfl⟩ := hprobe.check.head
    exact ⟨_, rfl⟩

theorem Vigil.ne_nil (h : Vigil g project o x steps r time) : steps ≠ [] := by
  obtain ⟨rest, rfl⟩ := h.head
  exact List.cons_ne_nil _ _

theorem Vigil.not_delete (h : Vigil g project o x steps r time) : .delete ∉ steps := by
  induction h with
  | gone hprobe => exact hprobe.check.not_delete
  | timeUp hsteps _ =>
    rcases hsteps with rfl | hcheck
    · simp
    · exact hcheck.not_delete
  | again hprobe _ ih =>
    rw [List.mem_append]
    exact not_or.mpr ⟨hprobe.check.not_delete, ih⟩

/-- A probe in vain is followed by a look. -/
theorem Probe.linked_append {rest : List DeletionStep} (h : Probe g project x steps none)
    (hrest : Linked project (x.after (g.deletionRequests project steps)) (.look :: rest)) :
    Linked project x (steps ++ .look :: rest) := by
  cases h with
  | unknown hfound he =>
    exact (linked_cons g).mpr
      ⟨.lookAgain (not_missing_of_looked_error hfound he) fun _ => not_renamed_of_error hfound,
        hrest⟩
  | kept hfound hsoft =>
    exact (linked_cons g).mpr
      ⟨.lookAgain (not_missing_of_looked_ok hfound) fun _ => not_renamed_of_not_soft hfound hsoft,
        hrest⟩
  | @refused found e hfound hsoft hpurge =>
    have hrenamed : Renamed project (x.replyAt 0) found.path :=
      (renamed_iff hfound).mpr ⟨hsoft, rfl⟩
    have hrefused : (x.replyAt 1).success? = none := by
      refine Classical.not_not.mp fun hsome => ?_
      rw [purges_eq_ok_iff.mpr hsome] at hpurge
      cases hpurge
    refine (linked_cons g).mpr ⟨.purge hrenamed, (linked_cons g).mpr ⟨.retry ?_, ?_⟩⟩
    · rw [Exchange.replyAt_after]
      exact hrefused
    · rw [Exchange.after_after]
      exact hrest

theorem Vigil.linked (h : Vigil g project o x steps r time) : Linked project x steps := by
  induction h with
  | gone hprobe => exact hprobe.check.linked g
  | timeUp hsteps _ =>
    rcases hsteps with rfl | hcheck
    · exact linked_one _
    · exact hcheck.linked g
  | again hprobe hrest ih =>
    obtain ⟨rest, rfl⟩ := hrest.head
    exact hprobe.linked_append ih

/-- The last reply of a wait that has an outcome shows that the project has gone. -/
theorem Vigil.concludes (h : Vigil g project o x steps (.ok ()) time) :
    ∃ n step, n + 1 = steps.length ∧ steps[n]? = some step ∧ Concludes step (x.replyAt n) := by
  generalize hr : (.ok () : Except WaitTimeout Unit) = r at h
  induction h with
  | gone hprobe =>
    cases hprobe with
    | missing hfound he => exact ⟨0, .look, rfl, rfl, missing_of_looked hfound he⟩
    | purged _ _ hpurge => exact ⟨1, .purge _, rfl, rfl, purges_eq_ok_iff.mp hpurge⟩
  | timeUp _ _ => cases hr
  | @again x steps rest _ _ _ _ ih =>
    obtain ⟨n, step, hlast, hstep, hconcludes⟩ := ih hr
    refine ⟨steps.length + n, step, ?_, ?_, ?_⟩
    · rw [List.length_append, ← hlast, Nat.add_assoc]
    · rw [List.getElem?_append_right (Nat.le_add_right _ _), Nat.add_sub_cancel_left]
      exact hstep
    · rw [Exchange.replyAt_after, deletionRequests, List.length_map] at hconcludes
      exact hconcludes

theorem Vigil.isOver_of_error {t : WaitTimeout} (h : Vigil g project o x steps (.error t) time) :
    Wait.IsOver o time t.attempts := by
  generalize hr : (.error t : Except WaitTimeout Unit) = r at h
  induction h with
  | gone _ => cases hr
  | timeUp _ hover =>
    cases hr
    exact hover
  | again _ _ ih => exact ih hr

end

/-! ## The whole deletion -/

/-- The steps of a deletion follow one another from a look on, and the plain delete is at most the
second. -/
structure Orderly (project : String) (x : Exchange) (steps : List DeletionStep) : Prop where
  first : ∀ step, steps[0]? = some step → step = .look
  second : ∀ n, steps[n]? = some .delete → n = 1
  linked : Linked project x steps

section

variable {steps : List DeletionStep} {n : Nat}

theorem Orderly.of_check (g : GitLab) (h : Check project (x.replyAt 0) steps) :
    Orderly project x steps := by
  obtain ⟨rest, hrest⟩ := h.head
  refine ⟨?_, fun n hn => absurd (List.mem_of_getElem? hn) h.not_delete, h.linked g⟩
  rintro step hstep
  rw [hrest] at hstep
  exact (Option.some.inj hstep).symm

/-- A look and a plain delete may come first where no plain delete follows. -/
theorem Orderly.of_delete {rest : List DeletionStep} (hnot : .delete ∉ rest)
    (hlinked : Linked project x (.look :: .delete :: rest)) :
    Orderly project x (.look :: .delete :: rest) := by
  refine ⟨fun step hstep => (Option.some.inj hstep).symm, fun n hn => ?_, hlinked⟩
  match n with
  | 0 => cases hn
  | 1 => rfl
  | n + 2 =>
    have hrest : rest[n]? = some .delete := hn
    exact absurd (List.mem_of_getElem? hrest) hnot

theorem Orderly.before (h : Orderly project x steps) {step : DeletionStep} (hstep : step ≠ .look)
    (hn : steps[n]? = some step) :
    ∃ m before, n = m + 1 ∧ steps[m]? = some before ∧
      Follows project before (x.replyAt m) step := by
  cases n with
  | zero => exact absurd (h.first step hn) hstep
  | succ m =>
    have hm : m < steps.length := Nat.lt_of_succ_lt (List.getElem?_eq_some_iff.mp hn).1
    exact ⟨m, steps[m], rfl, List.getElem?_eq_getElem hm,
      h.linked m _ _ (List.getElem?_eq_getElem hm) hn⟩

theorem Orderly.before_delete (h : Orderly project x steps) (hn : steps[n]? = some .delete) :
    n = 1 ∧ ∀ path, ¬ Renamed project (x.replyAt 0) path := by
  obtain ⟨m, before, rfl, -, hfollows⟩ := h.before (by simp) hn
  obtain rfl : m = 0 := Nat.succ.inj (h.second _ hn)
  cases hfollows with
  | delete _ hrenamed => exact ⟨rfl, hrenamed⟩

theorem Orderly.before_purge (h : Orderly project x steps) (hn : steps[n]? = some (.purge path)) :
    ∃ m, n = m + 1 ∧ steps[m]? = some .look ∧ Reports (x.replyAt m) path := by
  obtain ⟨m, before, rfl, hbefore, hfollows⟩ := h.before (by simp) hn
  cases hfollows with
  | purge hrenamed => exact ⟨m, rfl, hbefore, hrenamed.2⟩

theorem Orderly.after_purge (h : Orderly project x steps) (hn : steps[n]? = some (.purge path)) :
    steps[n + 1]? = some .look ∧ (x.replyAt n).success? = none ∨ n + 1 = steps.length := by
  have hlength : n < steps.length := (List.getElem?_eq_some_iff.mp hn).1
  rcases Nat.lt_or_eq_of_le (Nat.succ_le_of_lt hlength) with hnext | hlast
  · have hfollows := h.linked n _ _ hn (List.getElem?_eq_getElem hnext)
    generalize hstep : steps[n + 1] = step at hfollows
    cases hfollows with
    | retry hfailed => exact .inl ⟨by rw [List.getElem?_eq_getElem hnext, hstep], hfailed⟩
  · exact .inr hlast

end

/-- What the steps of a deletion, the replies to them and its outcome have to do with each other. -/
structure Staged (g : GitLab) (project : String) (x : Exchange) (steps : List DeletionStep)
    (t : Timed Exchange (Except ForgeError Bool)) : Prop where
  /-- That there was nothing to delete is found by the first look or by the plain delete, and
  nothing follows. -/
  nothing : t.result = .ok false ↔
    steps = [.look] ∧ (x.replyAt 0).IsMissing ∨ steps = [.look, .delete] ∧ (x.replyAt 1).IsMissing
  /-- A project has gone when it is removed for good, or is missing after a plain delete that
  succeeded, and nothing follows. -/
  gone : t.result = .ok true → ∃ n, n + 1 = steps.length ∧
    ((∃ path, steps[n]? = some (.purge path) ∧ (x.replyAt n).success? ≠ none) ∨
      steps[n]? = some .look ∧ (x.replyAt n).IsMissing ∧
        steps[1]? = some .delete ∧ 1 < n ∧ (x.replyAt 1).success? ≠ none)
  /-- The plain delete is at most the second request, after a look that reports no deleted
  project. -/
  deletes : ∀ n, steps[n]? = some .delete → n = 1 ∧ ∀ path, ¬ Renamed project (x.replyAt 0) path
  /-- What is removed for good is what the look before it reports. -/
  purges : ∀ n path, steps[n]? = some (.purge path) →
    ∃ m, n = m + 1 ∧ steps[m]? = some .look ∧ Reports (x.replyAt m) path
  /-- After a plain delete, a removal for good that fails is followed by another look, unless the
  time is over. -/
  retries : steps[1]? = some .delete → ∀ n path, steps[n]? = some (.purge path) →
    steps[n + 1]? = some .look ∧ (x.replyAt n).success? = none ∨
      n + 1 = steps.length ∧ (t.result = .ok true ∧ (x.replyAt n).success? ≠ none ∨
        ∃ d time, t.result = .error (.timeout d) ∧
          t.elapsed = Exchange.waited (x.replyAt 0) + (Exchange.waited (x.replyAt 1) + time) ∧
          Wait.IsOver g.timeouts.delete time d.attempts)

variable {steps : List DeletionStep} {t : Timed Exchange (Except ForgeError Bool)}

/-- What the outcome adds to the order of the steps. -/
theorem Staged.of_orderly (h : Orderly project x steps)
    (nothing : t.result = .ok false ↔ steps = [.look] ∧ (x.replyAt 0).IsMissing ∨
      steps = [.look, .delete] ∧ (x.replyAt 1).IsMissing)
    (gone : t.result = .ok true → ∃ n step, n + 1 = steps.length ∧ steps[n]? = some step ∧
      Concludes step (x.replyAt n) ∧
      (step = .look → steps[1]? = some .delete ∧ 1 < n ∧ (x.replyAt 1).success? ≠ none))
    (timeUp : ∀ path, steps[1]? = some .delete → .purge path ∈ steps → t.result = .ok true ∨
      ∃ d time, t.result = .error (.timeout d) ∧
        t.elapsed = Exchange.waited (x.replyAt 0) + (Exchange.waited (x.replyAt 1) + time) ∧
        Wait.IsOver g.timeouts.delete time d.attempts) :
    Staged g project x steps t where
  nothing := nothing
  gone := by
    intro hgone
    obtain ⟨n, step, hlast, hstep, hconcludes, hlooked⟩ := gone hgone
    refine ⟨n, hlast, ?_⟩
    cases step with
    | look => exact .inr ⟨hstep, hconcludes, hlooked rfl⟩
    | delete => exact hconcludes.elim
    | purge path => exact .inl ⟨path, hstep, hconcludes⟩
  deletes := fun _ => h.before_delete
  purges := fun _ _ => h.before_purge
  retries := by
    intro hdelete n path hn
    refine (h.after_purge hn).imp id fun hlast => ⟨hlast, ?_⟩
    refine (timeUp path hdelete (List.mem_of_getElem? hn)).imp (fun hgone => ⟨hgone, ?_⟩) id
    obtain ⟨m, step, hlast', hstep, hconcludes, -⟩ := gone hgone
    obtain rfl : m = n := Nat.succ.inj (hlast'.trans hlast.symm)
    rw [hn] at hstep
    cases hstep
    exact hconcludes

/-- What becomes of a project that no plain delete has been granted for. -/
theorem Course.staged (h : Course g project x steps t.result)
    (hgranted : ¬ g.Granted project x) : Staged g project x steps t := by
  generalize hresult : t.result = r at h
  cases h with
  | missing hlooked he =>
    have horderly : Orderly project x [.look] :=
      .of_check g (.quiet fun _ => not_renamed_of_error hlooked)
    refine .of_orderly horderly ?_ ?_ fun _ => nofun
    · exact iff_of_true hresult (.inl ⟨rfl, missing_of_looked hlooked he⟩)
    · rw [hresult]
      exact nofun
  | unknown hlooked he =>
    have horderly : Orderly project x [.look] :=
      .of_check g (.quiet fun _ => not_renamed_of_error hlooked)
    refine .of_orderly horderly ?_ ?_ fun _ => nofun
    · rw [hresult]
      refine iff_of_false nofun ?_
      rintro (⟨-, hmissing⟩ | ⟨hsteps, -⟩)
      · exact not_missing_of_looked_error hlooked he hmissing
      · cases hsteps
    · rw [hresult]
      exact nofun
  | @purged found hfound hsoft =>
    have horderly : Orderly project x [.look, .purge found.path] :=
      .of_check g (.purge ((renamed_iff hfound).mpr ⟨hsoft, rfl⟩))
    refine .of_orderly horderly ?_ ?_ fun _ => nofun
    · rw [hresult]
      refine iff_of_false ?_ (by simp)
      cases g.purges found.path (x.replyAt 1) <;> exact nofun
    · intro hgone
      have hpurge : g.purges found.path (x.replyAt 1) = .ok () := by
        rw [hresult] at hgone
        cases hpurge : g.purges found.path (x.replyAt 1) with
        | error e =>
          rw [hpurge] at hgone
          cases hgone
        | ok _ => rfl
      exact ⟨1, .purge found.path, rfl, rfl, purges_eq_ok_iff.mp hpurge, nofun⟩
  | kept hfound hsoft hdelete hr =>
    have horderly : Orderly project x [.look, .delete] :=
      .of_delete (by simp) ((linked_cons g).mpr ⟨.delete (not_missing_of_looked_ok hfound)
        fun _ => not_renamed_of_not_soft hfound hsoft, linked_one _⟩)
    refine .of_orderly horderly ?_ ?_ ?_
    · rw [hresult, ← hdelete, deletes_eq_false_iff]
      simp
    · exact fun hgone => absurd (hresult.symm.trans hgone) hr
    · simp
  | watched hfound hsoft hdelete _ _ => exact absurd ⟨_, hfound, hsoft, hdelete⟩ hgranted

/-- The steps of a wait come after a look and a delete. -/
theorem Vigil.orderly {o : WaitOptions} {r : Except WaitTimeout Unit} {time : Nat}
    (h : Vigil g project o (x.after (g.deletionRequests project [.look, .delete])) steps r time)
    (hgranted : g.Granted project x) : Orderly project x (.look :: .delete :: steps) := by
  obtain ⟨found, hfound, hsoft, hdelete⟩ := hgranted
  obtain ⟨rest, rfl⟩ := h.head
  refine .of_delete h.not_delete ((linked_cons g).mpr ⟨.delete (not_missing_of_looked_ok hfound)
    fun _ => not_renamed_of_not_soft hfound hsoft, (linked_cons g).mpr ⟨.watch ?_, ?_⟩⟩)
  · rw [Exchange.replyAt_after]
    exact deletes_eq_true_iff.mp hdelete
  · rw [Exchange.after_after]
    exact h.linked

/-- What becomes of a project whose plain delete has been granted. -/
theorem staged_of_granted (hbase : g.api.base.isHttp = true) {repo : String}
    (hgranted : g.Granted (g.project repo) x) :
    ∃ steps, Staged g (g.project repo) x steps (g.deleteRepository repo x) ∧
      (g.deleteRepository repo x).state = x.after (g.deletionRequests (g.project repo) steps) := by
  obtain ⟨steps, hstate, hended⟩ := g.vigil_awaitDeletion hbase (g.project repo)
    (x.after (g.deletionRequests (g.project repo) [.look, .delete]))
  rw [Exchange.after_after] at hstate
  rw [deleteRepository_of_granted hbase hgranted]
  refine ⟨.look :: .delete :: steps, ?_, hstate⟩
  rcases hended with ⟨hok, hvigil⟩ | ⟨d, herror, hvigil⟩
  · rw [hok]
    refine .of_orderly (hvigil.orderly hgranted) (iff_of_false nofun (by simp [hvigil.ne_nil]))
      (fun _ => ?_) fun _ _ _ => .inl rfl
    obtain ⟨-, -, -, hdelete⟩ := hgranted
    obtain ⟨n, step, hlast, hstep, hconcludes⟩ := hvigil.concludes
    rw [Exchange.replyAt_after] at hconcludes
    refine ⟨2 + n, step, ?_, ?_, hconcludes, fun _ => ⟨rfl, Nat.lt_add_right n Nat.one_lt_two, ?_⟩⟩
    · simp only [List.length_cons]
      omega
    · rw [Nat.add_comm]
      exact hstep
    · exact deletes_eq_true_iff.mp hdelete
  · rw [herror]
    exact .of_orderly (hvigil.orderly hgranted) (iff_of_false nofun (by simp [hvigil.ne_nil]))
      nofun fun _ _ _ => .inr ⟨d, _, rfl, rfl, hvigil.isOver_of_error⟩

/-- A project is deleted in two stages, whatever the server replies. -/
theorem deleteRepository_stages (g : GitLab) (repo : String) (x : Exchange) :
    ∃ steps, Staged g (g.project repo) x steps (g.forge.deleteRepository repo x) ∧
      (g.forge.deleteRepository repo x).state =
        x.after (g.deletionRequests (g.project repo) steps) := by
  by_cases hbase : g.api.base.isHttp = true
  · by_cases hgranted : g.Granted (g.project repo) x
    · exact staged_of_granted hbase hgranted
    · obtain ⟨steps, hcourse, hstate⟩ := course_deleteRepository hbase repo x
      exact ⟨steps, hcourse.staged hgranted, hstate⟩
  · obtain ⟨e, he, -⟩ := deleteRepository_of_not_isHttp hbase repo x
    refine ⟨[], ?_, ?_⟩
    · show Staged g _ x [] (g.deleteRepository repo x)
      rw [he]
      exact .of_orderly ⟨nofun, nofun, nofun⟩ (iff_of_false nofun (by simp)) nofun nofun
    · show (g.deleteRepository repo x).state = _
      rw [he]
      exact x.after_nil.symm

end GitLab

/-- A server that renames a project, fails to remove it for good and has lost it after that. -/
def lostOnRetry : List Reply :=
  [.prompt [] "\x7b\"id\":1,\"path_with_namespace\":\"o/r\"\x7d",
    ⟨0, some ⟨202, [], some []⟩⟩,
    .prompt [] "\x7b\"id\":1,\"path_with_namespace\":\"o/r-deleted-1\"\x7d",
    ⟨0, some ⟨500, [], some []⟩⟩,
    ⟨0, some ⟨404, [], some []⟩⟩]

/-- There the fifth request finds the project gone, after a plain delete and a removal for good that
failed. -/
theorem deleteRepository_stages_retried :
    let t := publicGitLab.forge.deleteRepository "o/r" ⟨lostOnRetry, #[]⟩
    t.result = .ok true ∧ t.state.sent.toList.map Request.shown = [
      (.get, "https://gitlab.com/api/v4/projects/o%2Fr", none),
      (.delete, "https://gitlab.com/api/v4/projects/o%2Fr", none),
      (.get, "https://gitlab.com/api/v4/projects/o%2Fr", none),
      (.delete, "https://gitlab.com/api/v4/projects/o%2Fr-deleted-1?full_path=o%2Fr-deleted-1" ++
        "&permanently_remove=true", none),
      (.get, "https://gitlab.com/api/v4/projects/o%2Fr", none)] ∧ ∃ steps,
      t.state.sent = (publicGitLab.deletionRequests "o/r" steps).toArray ∧
      steps.length = 5 ∧ steps[1]? = some .delete ∧ steps[3]? = some (.purge "o/r-deleted-1") ∧
      steps[4]? = some .look := by
  intro t
  have hproject : publicGitLab.project "o/r" = "o/r" := by decide
  have hgone : t.result = .ok true := rfl
  have hmethods : t.state.sent.toList.map (·.method) = [.get, .delete, .get, .delete, .get] := by
    decide +kernel
  obtain ⟨steps, hstaged, hstate⟩ :=
    GitLab.deleteRepository_stages publicGitLab "o/r" ⟨lostOnRetry, #[]⟩
  rw [hproject] at hstaged hstate
  have hsent : t.state.sent = (publicGitLab.deletionRequests "o/r" steps).toArray := by
    rw [show t.state = _ from hstate]
    exact Array.empty_append
  rw [hsent, GitLab.deletionRequests, List.map_map] at hmethods
  have hlength : steps.length = 5 := by simpa using congrArg List.length hmethods
  have hreported : ((Exchange.replyAt ⟨lostOnRetry, #[]⟩ 2).read? GitLab.Project.decoder).map
      GitLab.Project.path = some "o/r-deleted-1" := by decide +kernel
  have hfourth : steps[3]? = some (.purge "o/r-deleted-1") := by
    have hmethod : (steps.map (Request.method ∘ publicGitLab.deletionRequest "o/r"))[3]? =
        some .delete := congrArg (·[3]?) hmethods
    rw [List.getElem?_map, Option.map_eq_some_iff] at hmethod
    obtain ⟨step, hstep, hdelete⟩ := hmethod
    cases step with
    | look => cases hdelete
    | delete => exact absurd (hstaged.deletes 3 hstep).1 (by decide)
    | purge path =>
      obtain ⟨m, hm, -, hreports⟩ := hstaged.purges 3 path hstep
      obtain rfl : m = 2 := by omega
      obtain rfl : "o/r-deleted-1" = path :=
        Option.some.inj (hreported.symm.trans (GitLab.reports_iff.mp hreports))
      exact hstep
  refine ⟨hgone, by decide +kernel, steps, hsent, hlength, ?_⟩
  obtain ⟨n, hlast, ⟨path, -, hpurged⟩ | ⟨hlook, -, hdelete, -, -⟩⟩ := hstaged.gone hgone
  · obtain rfl : n = 4 := by omega
    exact absurd (by decide) hpurged
  · obtain rfl : n = 4 := by omega
    exact ⟨hdelete, hfourth, hlook⟩

end ForgeChores
