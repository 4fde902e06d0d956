import ForgeChores.Proofs.Wait.Polling
import ForgeChores.Wait.Status

/-!
# ForgeChores.Proofs.Wait.Status

What a status wait has seen when it ends. It is two waits in a row, and each check of either is one
fetch of the statuses. `Course` is the wait with its fetches, those of each phase by themselves.

* `round_appeared`, `round_finished`: what a check makes of a fetch.
* `Course.deterministic`, `course_forStatus`: a status wait has one course.
* `Course.concluded`: a final state is that of the status found in the last fetch, after one that
  found a status to wait for, and no fetch between them found a finished one.
* `forStatus_sound`: what either ending says about the fetches, and when the wait is over.
-/

namespace ForgeChores

namespace Wait

variable {σ ε : Type} {describe : ε → String} {name : String} {o appear complete : WaitOptions}
  {report : Attempt σ ε (List CommitStatus)}

/-! ## Fetches -/

/-- One fetch of the statuses: how long it may take and the state it begins in. -/
structure Fetch (σ : Type) where
  limit : Nat
  state : σ

namespace Fetch

/-- The fetch of a check that begins `elapsed` after the wait did. -/
def begun (o : WaitOptions) (elapsed : Nat) (s : σ) : Fetch σ :=
  ⟨budget o elapsed, s⟩

/-- The statuses that a fetch delivers in time. -/
def delivered? (report : Attempt σ ε (List CommitStatus)) (f : Fetch σ) :
    Option (List CommitStatus) :=
  match (report.run (some f.limit) f.state).result with
  | .done statuses => some statuses
  | _ => none

/-- The first matching status that a fetch delivers in time. -/
def found? (report : Attempt σ ε (List CommitStatus)) (name : String) (f : Fetch σ) :
    Option CommitStatus :=
  (f.delivered? report).bind (CommitStatus.find? name)

end Fetch

/-- The fetch of a check in phase one. -/
def Progress.fetch (o : WaitOptions) (p : Progress σ) : Fetch σ := .begun o p.elapsed p.state

/-- The fetch of a check in phase two, which notes a state beside. -/
def Progress.fetchNoting (o : WaitOptions) (p : Progress (σ × Option StatusState)) : Fetch σ :=
  .begun o p.elapsed p.state.1

/-! ## One check -/

theorem round_appeared (p : Progress σ) :
    (round describe o (appeared name report) p).1 =
      ((p.fetch o).found? report name).map fun _ => () := by
  have hrun : ∀ limit s, (appeared name report).run limit s =
    Attempt.andThen (fun statuses => pure ((CommitStatus.find? name statuses).map fun _ => ()))
      (report.run limit s) := fun _ _ => rfl
  simp only [round, hrun, Fetch.found?, Fetch.delivered?, Progress.fetch, Fetch.begun]
  rcases report.run (some (budget o p.elapsed)) p.state with
    ⟨statuses | e | hcut, spent, s⟩ <;> rfl

theorem run_note {τ : Type} (t : τ) (limit : Option Nat) (s : σ × τ) :
    (Attempt.note t : Attempt (σ × τ) ε Unit).run limit s = ⟨.done (), 0, (s.1, t)⟩ := by
  cases limit <;> rfl

section NoteFinished

variable {statuses : List CommitStatus}

theorem run_noteFinished_of_finished {c : CommitStatus}
    (hc : CommitStatus.find? name statuses = some c) (hfinal : c.state.isPending = false)
    (limit : Option Nat) (s : σ × Option StatusState) :
    (noteFinished name statuses : Attempt _ ε _).run limit s =
      ⟨.done (some ()), 0, (s.1, some c.state)⟩ := by
  simp only [noteFinished, hc, hfinal, Bool.false_eq_true, if_false]
  show Attempt.andThen _ ((Attempt.note (some c.state)).run limit s) = _
  rw [run_note]
  rfl

theorem run_noteFinished_of_pending
    (h : ∀ c, CommitStatus.find? name statuses = some c → c.state.isPending = true)
    (limit : Option Nat) (s : σ × Option StatusState) :
    (noteFinished name statuses : Attempt _ ε _).run limit s = ⟨.done none, 0, s⟩ := by
  cases hc : CommitStatus.find? name statuses with
  | none =>
    simp only [noteFinished, hc]
    rfl
  | some c =>
    simp only [noteFinished, hc, h c hc, if_true]
    rfl

end NoteFinished

/-- A check of phase two ends it and notes the state of the status found, or that status has not
finished. -/
theorem round_finished (p : Progress (σ × Option StatusState)) :
    (∃ c q, (p.fetchNoting o).found? report name = some c ∧ c.state.isPending = false ∧
      round describe o (finished name report) p = (some (), q) ∧ q.state.2 = some c.state) ∨
    ((∀ c, (p.fetchNoting o).found? report name = some c → c.state.isPending = true) ∧
      (round describe o (finished name report) p).1 = none) := by
  have hrun : ∀ limit s, (finished name report).run limit s =
    Attempt.andThen (noteFinished name) (report.onFirst.run limit s) := fun _ _ => rfl
  simp only [round, hrun, Fetch.found?, Fetch.delivered?, Progress.fetchNoting, Fetch.begun,
    Attempt.onFirst]
  rcases report.run (some (budget o p.elapsed)) p.state.1 with
    ⟨statuses | e | hcut, spent, s⟩
  · simp only [Attempt.andThen, Option.bind_some]
    by_cases hpending : ∀ c, CommitStatus.find? name statuses = some c → c.state.isPending = true
    · rw [run_noteFinished_of_pending hpending]
      exact .inr ⟨hpending, rfl⟩
    · simp only [Classical.not_forall, Bool.not_eq_true] at hpending
      obtain ⟨c, hc, hfinal⟩ := hpending
      rw [run_noteFinished_of_finished hc hfinal]
      exact .inl ⟨c, _, hc, hfinal, rfl, rfl⟩
  · exact .inr ⟨by simp, rfl⟩
  · exact .inr ⟨by simp, rfl⟩

theorem found_of_round_appeared {p q : Progress σ}
    (h : round describe o (appeared name report) p = (some (), q)) :
    ∃ c, (p.fetch o).found? report name = some c := by
  have hround : (round describe o (appeared name report) p).1 = _ := round_appeared p
  rw [h] at hround
  obtain ⟨c, hc, -⟩ := Option.map_eq_some_iff.mp hround.symm
  exact ⟨c, hc⟩

theorem round_appeared_eq_none_iff {p : Progress σ} :
    (round describe o (appeared name report) p).1 = none ↔
      (p.fetch o).found? report name = none := by
  rw [round_appeared, Option.map_eq_none_iff]

theorem found_of_round_finished {p q : Progress (σ × Option StatusState)}
    (h : round describe o (finished name report) p = (some (), q)) :
    ∃ c, (p.fetchNoting o).found? report name = some c ∧ c.state.isPending = false ∧
      q.state.2 = some c.state := by
  rcases round_finished p with ⟨c, q', hc, hfinal, hround, hnoted⟩ | ⟨-, hnone⟩
  · rw [h] at hround
    cases hround
    exact ⟨c, hc, hfinal, hnoted⟩
  · rw [h] at hnone
    cases hnone

theorem pending_of_round_finished {p : Progress (σ × Option StatusState)}
    (h : (round describe o (finished name report) p).1 = none) :
    ∀ c, (p.fetchNoting o).found? report name = some c → c.state.isPending = true := by
  rcases round_finished p with ⟨c, q', -, -, hround, -⟩ | ⟨hpending, -⟩
  · rw [hround] at h
    cases h
  · exact hpending

/-! ## Both phases -/

/-- The fetches of a status wait from `s`, phase by phase, and what comes of it. -/
inductive Course (describe : ε → String) (name : String) (appear complete : WaitOptions)
    (report : Attempt σ ε (List CommitStatus)) (s : σ) :
    (first second : List (Fetch σ)) → Timed σ (Except WaitTimeout StatusState) → Prop where
  | unseen {begun : List (Progress σ)} {e : WaitTimeout} {d : Nat} {s' : σ} :
      Polling describe (toAppear name) appear (appeared name report) ⟨0, 0, none, s⟩ begun
        ⟨.error e, d, s'⟩ →
      Course describe name appear complete report s (begun.map (Progress.fetch appear)) []
        ⟨.error e, d, s'⟩
  | seen {begun : List (Progress σ)} {d : Nat} {s' : σ}
      {begun' : List (Progress (σ × Option StatusState))} {r : Except WaitTimeout Unit} {d' : Nat}
      {u : σ × Option StatusState} :
      Polling describe (toAppear name) appear (appeared name report) ⟨0, 0, none, s⟩ begun
        ⟨.ok (), d, s'⟩ →
      Polling describe (toComplete name) complete (finished name report) ⟨0, 0, none, (s', none)⟩
        begun' ⟨r, d', u⟩ →
      Course describe name appear complete report s (begun.map (Progress.fetch appear))
        (begun'.map (Progress.fetchNoting complete))
        ⟨r.map fun _ => u.2.getD (.other "unknown"), d + d', u.1⟩

theorem forStatus_of_error {s s' : σ} {e : WaitTimeout} {d : Nat}
    (h : poll describe (toAppear name) appear (appeared name report) s = ⟨.error e, d, s'⟩) :
    forStatus describe name appear complete report s = ⟨.error e, d, s'⟩ :=
  Task.bind_of_error h

theorem forStatus_of_ok {s s' : σ} {d d' : Nat} {r : Except WaitTimeout Unit}
    {u : σ × Option StatusState}
    (h : poll describe (toAppear name) appear (appeared name report) s = ⟨.ok (), d, s'⟩)
    (h' : poll describe (toComplete name) complete (finished name report) (s', none) = ⟨r, d', u⟩) :
    forStatus describe name appear complete report s =
      ⟨r.map fun _ => u.2.getD (.other "unknown"), d + d', u.1⟩ := by
  have hnoted : Task.noted none (poll describe (toComplete name) complete (finished name report)) s' =
      ⟨r.map fun _ => u.2, d', u.1⟩ := by
    unfold Task.noted
    rw [h']
  unfold forStatus
  rw [Task.bind_of_ok h]
  cases r with
  | error e => rw [Task.bind_of_error hnoted]; rfl
  | ok a => rw [Task.bind_of_ok hnoted]; rfl

/-- The courses of the two waits make one of the status wait. -/
theorem course_of_pollings {s : σ}
    (h : ∃ begun, Polling describe (toAppear name) appear (appeared name report) ⟨0, 0, none, s⟩ begun
      (poll describe (toAppear name) appear (appeared name report) s))
    (h' : ∀ d s', poll describe (toAppear name) appear (appeared name report) s = ⟨.ok (), d, s'⟩ →
      ∃ begun, Polling describe (toComplete name) complete (finished name report)
        ⟨0, 0, none, (s', none)⟩ begun
        (poll describe (toComplete name) complete (finished name report) (s', none))) :
    ∃ first second, Course describe name appear complete report s first second
      (forStatus describe name appear complete report s) := by
  obtain ⟨begun, hbegun⟩ := h
  rcases hfirst : poll describe (toAppear name) appear (appeared name report) s with
    ⟨e | _, d, s'⟩
  · rw [hfirst] at hbegun
    rw [forStatus_of_error hfirst]
    exact ⟨_, _, .unseen hbegun⟩
  · rw [hfirst] at hbegun
    obtain ⟨begun', hbegun'⟩ := h' d s' hfirst
    rcases hsecond : poll describe (toComplete name) complete (finished name report) (s', none) with
      ⟨r, d', u⟩
    rw [hsecond] at hbegun'
    rw [forStatus_of_ok hfirst hsecond]
    exact ⟨_, _, .seen hbegun hbegun'⟩

theorem course_forStatus (ha : 0 < appear.interval) (hc : 0 < complete.interval) (s : σ) :
    ∃ first second, Course describe name appear complete report s first second
      (forStatus describe name appear complete report s) :=
  course_of_pollings (polling_poll ha s) fun _ s' _ => polling_poll hc (s', none)

/-- Whatever the intervals, a status wait with a final state has a course. -/
theorem course_of_ok {s : σ} {state : StatusState}
    (h : (forStatus describe name appear complete report s).result = .ok state) :
    ∃ first second, Course describe name appear complete report s first second
      (forStatus describe name appear complete report s) := by
  rcases hfirst : poll describe (toAppear name) appear (appeared name report) s with
    ⟨e | _, d, s'⟩
  · rw [forStatus_of_error hfirst] at h
    cases h
  · refine course_of_pollings (polling_poll_of_ok (by rw [hfirst])) fun d' s'' heq => ?_
    rw [hfirst] at heq
    cases heq
    rcases hsecond : poll describe (toComplete name) complete (finished name report) (s', none) with
      ⟨e | _, d', u⟩
    · rw [forStatus_of_ok hfirst hsecond] at h
      cases h
    · rw [← hsecond]
      exact polling_poll_of_ok (by rw [hsecond])

namespace Course

variable {s : σ} {first second first' second' : List (Fetch σ)}
  {t t' : Timed σ (Except WaitTimeout StatusState)}

theorem deterministic (h : Course describe name appear complete report s first second t)
    (h' : Course describe name appear complete report s first' second' t') :
    first' = first ∧ second' = second ∧ t' = t := by
  cases h with
  | unseen hp =>
    cases h' with
    | unseen hp' =>
      obtain ⟨rfl, heq⟩ := hp.deterministic hp'
      cases heq
      exact ⟨rfl, rfl, rfl⟩
    | seen hp' _ => cases (hp.deterministic hp').2
  | seen hp hq =>
    cases h' with
    | unseen hp' => cases (hp.deterministic hp').2
    | seen hp' hq' =>
      obtain ⟨rfl, heq⟩ := hp.deterministic hp'
      cases heq
      obtain ⟨rfl, heq⟩ := hq.deterministic hq'
      cases heq
      exact ⟨rfl, rfl, rfl⟩

/-- What the fetches of a status wait have shown when it ends with `state`. -/
structure Concluded (report : Attempt σ ε (List CommitStatus)) (name : String)
    (earlier : List (Fetch σ)) (matching : Fetch σ) (between : List (Fetch σ)) (last : Fetch σ)
    (state : StatusState) : Prop where
  unseen : ∀ f ∈ earlier, f.found? report name = none
  seen : ∃ c, matching.found? report name = some c
  unfinished : ∀ f ∈ between, ∀ c, f.found? report name = some c → c.state.isPending = true
  found : ∃ c, last.found? report name = some c ∧ c.state = state
  final : state.isPending = false

theorem concluded {state : StatusState}
    (h : Course describe name appear complete report s first second t)
    (ht : t.result = .ok state) :
    ∃ earlier matching between last, first = earlier ++ [matching] ∧ second = between ++ [last] ∧
      Concluded report name earlier matching between last state := by
  cases h with
  | unseen _ => cases ht
  | @seen _ _ _ _ r _ _ hp hq =>
    obtain ⟨a, rfl⟩ : ∃ a, r = .ok a := by
      cases r with
      | error e => cases ht
      | ok a => exact ⟨a, rfl⟩
    obtain ⟨earlier, matching, _, rfl, hearlier, hmatching, -⟩ := hp.of_ok rfl
    obtain ⟨between, last, q, rfl, hbetween, hlast, hstate⟩ := hq.of_ok rfl
    obtain ⟨c, hfound, hfinal, hnoted⟩ := found_of_round_finished hlast
    -- the state that comes back is the one noted in the last check
    obtain rfl : c.state = state := by
      rw [← hstate] at hnoted
      rw [hnoted] at ht
      cases ht
      rfl
    refine ⟨_, _, _, _, List.map_append, List.map_append, ?_, found_of_round_appeared hmatching, ?_,
      ⟨c, hfound, rfl⟩, hfinal⟩
    · intro f hf
      obtain ⟨p, hp, rfl⟩ := List.mem_map.mp hf
      exact round_appeared_eq_none_iff.mp (hearlier p hp)
    · intro f hf
      obtain ⟨p, hp, rfl⟩ := List.mem_map.mp hf
      exact pending_of_round_finished (hbetween p hp)

/-- A status wait is given up in phase one without a match, or in phase two after one and without
a match that has finished. -/
theorem givenUp {e : WaitTimeout}
    (h : Course describe name appear complete report s first second t)
    (ht : t.result = .error e) :
    (e.what = toAppear name ∧ (∀ f ∈ first, f.found? report name = none) ∧ second = []) ∨
    (e.what = toComplete name ∧ (∃ f ∈ first, ∃ c, f.found? report name = some c) ∧
      ∀ f ∈ second, ∀ c, f.found? report name = some c → c.state.isPending = true) := by
  cases h with
  | unseen hp =>
    cases ht
    obtain ⟨hwhat, -, hnone⟩ := hp.of_error rfl
    refine .inl ⟨hwhat, ?_, rfl⟩
    intro f hf
    obtain ⟨p, hp, rfl⟩ := List.mem_map.mp hf
    exact round_appeared_eq_none_iff.mp (hnone p hp)
  | @seen _ _ _ _ r _ _ hp hq =>
    obtain rfl : r = .error e := by
      cases r with
      | error e' => cases ht; rfl
      | ok a => cases ht
    obtain ⟨earlier, matching, _, rfl, -, hmatching, -⟩ := hp.of_ok rfl
    obtain ⟨hwhat, -, hnone⟩ := hq.of_error rfl
    refine .inr ⟨hwhat, ⟨matching.fetch appear, by simp, found_of_round_appeared hmatching⟩, ?_⟩
    intro f hf
    obtain ⟨p, hp, rfl⟩ := List.mem_map.mp hf
    exact pending_of_round_finished (hnone p hp)

theorem elapsed_le (h : Course describe name appear complete report s first second t) :
    t.elapsed ≤ appear.longest + complete.longest := by
  cases h with
  | unseen hp =>
    exact Nat.le_add_right_of_le (hp.elapsed_le (Nat.zero_le _))
  | seen hp hq =>
    exact Nat.add_le_add (hp.elapsed_le (Nat.zero_le _)) (hq.elapsed_le (Nat.zero_le _))

end Course

theorem toAppear_ne_toComplete : toAppear name ≠ toComplete name := by
  intro h
  have hlist := congrArg String.toList h
  simp [toAppear, toComplete] at hlist

/-- A status wait has one course. If it ends with a state, that is the final state of the status
found in the last fetch, after one that found a status to wait for, and no fetch between them found
a finished one. If it is given up, the text tells the phase, which is the first exactly if no fetch
of it found a status, and then there is no other. Each phase keeps to its time. -/
theorem forStatus_sound (describe : ε → String) (name : String) (appear complete : WaitOptions)
    (report : Attempt σ ε (List CommitStatus)) (s : σ) (ha : 0 < appear.interval)
    (hc : 0 < complete.interval) :
    ∃ first second,
      Course describe name appear complete report s first second
        (forStatus describe name appear complete report s) ∧
      (∀ first' second' t, Course describe name appear complete report s first' second' t →
        first' = first ∧ second' = second ∧ t = forStatus describe name appear complete report s) ∧
      (∀ state, (forStatus describe name appear complete report s).result = .ok state →
        ∃ earlier matching between last,
          first = earlier ++ [matching] ∧ second = between ++ [last] ∧
          Course.Concluded report name earlier matching between last state) ∧
      (∀ e, (forStatus describe name appear complete report s).result = .error e →
        (e.what = toAppear name ↔ ∀ f ∈ first, f.found? report name = none) ∧
        (e.what = toComplete name ↔ ∃ f ∈ first, ∃ c, f.found? report name = some c) ∧
        ((∀ f ∈ first, f.found? report name = none) → second = [])) ∧
      (forStatus describe name appear complete report s).elapsed ≤
        appear.longest + complete.longest := by
  obtain ⟨first, second, hcourse⟩ := course_forStatus ha hc s
  refine ⟨first, second, hcourse, fun _ _ _ => hcourse.deterministic, fun _ => hcourse.concluded, ?_,
    hcourse.elapsed_le⟩
  intro e he
  rcases hcourse.givenUp he with ⟨hwhat, hnone, hsecond⟩ | ⟨hwhat, ⟨f, hf, c, hfound⟩, -⟩
  · have hno : ¬ ∃ f ∈ first, ∃ c, f.found? report name = some c := by
      rintro ⟨f, hf, c, hfound⟩
      rw [hnone f hf] at hfound
      cases hfound
    exact ⟨iff_of_true hwhat hnone,
      iff_of_false (by rw [hwhat]; exact toAppear_ne_toComplete) hno, fun _ => hsecond⟩
  · have hnot : ¬ ∀ f ∈ first, f.found? report name = none := by
      intro hnone
      rw [hnone f hf] at hfound
      cases hfound
    exact ⟨iff_of_false (by rw [hwhat]; exact toAppear_ne_toComplete.symm) hnot,
      iff_of_true hwhat ⟨f, hf, c, hfound⟩, fun hnone => absurd hnone hnot⟩

/-- Answers with the snapshots one after the other, each at once. -/
def scripted (snapshots : List (Except String (List CommitStatus))) :
    Attempt Nat String (List CommitStatus) :=
  .step fun n => (0, snapshots.getD n (.ok []), n + 1)

/-- A status that appears with the second fetch and has finished by the fifth. -/
def slowBuild : List (Except String (List CommitStatus)) :=
  [.ok [⟨"lint", .success⟩], .ok [⟨"lint", .success⟩, ⟨"build", .pending⟩], .error "refused",
    .ok [⟨"lint", .success⟩, ⟨"build", .running⟩], .ok [⟨"build", .failure⟩, ⟨"build", .success⟩]]

theorem forStatus_sound_met :
    0 < (WaitOptions.mk 1 3).interval ∧ 0 < (WaitOptions.mk 2 5).interval ∧
      (forStatus id "build" ⟨1, 3⟩ ⟨2, 5⟩ (scripted slowBuild) 0).result = .ok .failure ∧
      ∃ first second earlier matching between last,
        Course id "build" ⟨1, 3⟩ ⟨2, 5⟩ (scripted slowBuild) 0 first second
          (forStatus id "build" ⟨1, 3⟩ ⟨2, 5⟩ (scripted slowBuild) 0) ∧
        first = earlier ++ [matching] ∧ second = between ++ [last] ∧
        Course.Concluded (scripted slowBuild) "build" earlier matching between last .failure := by
  have hok : (forStatus id "build" ⟨1, 3⟩ ⟨2, 5⟩ (scripted slowBuild) 0).result = .ok .failure := by
    rfl
  obtain ⟨first, second, hcourse, -, hconcluded, -⟩ :=
    forStatus_sound id "build" ⟨1, 3⟩ ⟨2, 5⟩ (scripted slowBuild) 0 (by decide) (by decide)
  obtain ⟨earlier, matching, between, last, hfirst, hsecond, hlast⟩ := hconcluded _ hok
  exact ⟨by decide, by decide, hok, first, second, earlier, matching, between, last, hcourse, hfirst,
    hsecond, hlast⟩

end Wait
end ForgeChores
