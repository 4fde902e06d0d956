import ForgeChores.Proofs.Wait.Outcome
import ForgeChores.Proofs.Wait.Status

/-!
# ForgeChores.Proofs.Wait.Foretold

Waits over checks whose answers are known beforehand. A check is foretold if each time it is made it
answers at once with the next of a row of answers, whatever became of the ones before. `Stage j`
holds of the states in which the `j`-th answer is next.

* `poll_of_first`, `poll_of_no_first`: a wait over such a check ends with the first outcome in the
  row, if that comes before the deadline.
* `conclusion`: the closed form of a wait for a status, as a search in the row of reports.
* `forStatus_foretold`: the wait comes to that, and takes as many reports from the row.
-/

namespace ForgeChores
namespace Wait

variable {σ ε α β : Type} {name : String} {o appear complete : WaitOptions}

/-- From a state in stage `j`, the attempt answers at once with `say j` and leads to the next
stage. -/
def Foretold (m : Attempt σ ε α) (Stage : Nat → σ → Prop) (say : Nat → α) : Prop :=
  ∀ j s, Stage j s → ∀ limit, ∃ s', Stage (j + 1) s' ∧ m.run limit s = ⟨.done (say j), 0, s'⟩

theorem Foretold.map {m : Attempt σ ε α} {Stage : Nat → σ → Prop} {say : Nat → α}
    (h : Foretold m Stage say) (f : α → β) :
    Foretold (m >>= fun a => pure (f a)) Stage fun j => f (say j) := by
  intro j s hs limit
  obtain ⟨s', hs', hrun⟩ := h j s hs limit
  refine ⟨s', hs', ?_⟩
  show Attempt.andThen _ (m.run limit s) = _
  rw [hrun]
  rfl

/-! ## A wait -/

/-- The first of `n` answers from the `i`-th on that is an outcome, and which it is. -/
def first (say : Nat → Option α) (i n : Nat) : Option (Nat × α) :=
  (List.range' i n).findSome? fun k => (say k).map fun a => (k, a)

theorem first_eq_none_iff {say : Nat → Option α} {i n : Nat} :
    first say i n = none ↔ ∀ j < n, say (i + j) = none := by
  simp only [first, List.findSome?_eq_none_iff, List.mem_range'_1, Option.map_eq_none_iff]
  constructor
  · exact fun h j hj => h (i + j) ⟨by omega, by omega⟩
  · intro h k hk
    have hnone := h (k - i) (by omega)
    rwa [Nat.add_sub_cancel' hk.1] at hnone

theorem first_eq_some_iff {say : Nat → Option α} {i n k : Nat} {a : α} :
    first say i n = some (k, a) ↔
      ∃ m < n, k = i + m ∧ say k = some a ∧ ∀ j < m, say (i + j) = none := by
  induction n generalizing i with
  | zero => simp [first]
  | succ n ih =>
    have hcons : first say i (n + 1) =
        ((say i).map fun a => (i, a)).or (first say (i + 1) n) := by
      unfold first
      rw [List.range'_succ, List.findSome?_cons]
      cases say i <;> rfl
    rw [hcons]
    cases hi : say i with
    | some b =>
      simp only [Option.map_some, Option.some_or, Option.some.injEq, Prod.mk.injEq]
      constructor
      · rintro ⟨rfl, rfl⟩
        exact ⟨0, by omega, rfl, hi, nofun⟩
      · rintro ⟨m, hm, rfl, hk, hnone⟩
        cases m with
        | zero =>
          rw [Nat.add_zero, hi] at hk
          exact ⟨rfl, Option.some.inj hk⟩
        | succ m =>
          have hfirst := hnone 0 (Nat.succ_pos m)
          rw [Nat.add_zero, hi] at hfirst
          cases hfirst
    | none =>
      simp only [Option.map_none, Option.none_or, ih]
      constructor
      · rintro ⟨m, hm, rfl, hk, hnone⟩
        refine ⟨m + 1, by omega, by omega, hk, fun j hj => ?_⟩
        cases j with
        | zero => exact hi
        | succ j =>
          have hlater := hnone j (by omega)
          rwa [Nat.add_assoc, Nat.add_comm 1 j] at hlater
      · rintro ⟨m, hm, rfl, hk, hnone⟩
        cases m with
        | zero =>
          rw [Nat.add_zero, hi] at hk
          cases hk
        | succ m =>
          refine ⟨m, by omega, by omega, hk, fun j hj => ?_⟩
          have hlater := hnone (j + 1) (by omega)
          rwa [← Nat.add_assoc, Nat.add_right_comm] at hlater

theorem first_map (say : Nat → Option α) (f : α → β) (i n : Nat) :
    first (fun j => (say j).map f) i n = (first say i n).map fun found => (found.1, f found.2) := by
  unfold first
  rw [List.map_findSome?]
  congr 1
  funext k
  simp only [Function.comp_apply]
  cases say k <;> rfl

section Poll

variable {check : Attempt σ ε (Option α)} {Stage : Nat → σ → Prop} {say : Nat → Option α} {i : Nat}
  {s : σ}

/-- What is known of the turn after `n` others, which answers from stage `j`. -/
structure Instant (o : WaitOptions) (check : Attempt σ ε (Option α)) (Stage : Nat → σ → Prop)
    (say : Nat → Option α) (j : Nat) (t : Turn σ) : Prop where
  stage : Stage (j + 1) (t.run o check).state
  outcome : t.outcome? o check = say j
  ends : t.ends o check = t.begins
  fault : ∀ describe, t.fault? describe o check = none

theorem instant_of_stage (h : Foretold check Stage say) {j : Nat} {t : Turn σ}
    (ht : Stage j t.state) : Instant o check Stage say j t := by
  obtain ⟨s', hs', hrun⟩ := h j t.state ht (some (budget o t.begins))
  have hturn : t.run o check = ⟨.done (say j), 0, s'⟩ := hrun
  refine ⟨?_, ?_, ?_, fun describe => ?_⟩
  · rw [hturn]
    exact hs'
  · rw [Turn.outcome?, hturn]
    rfl
  · rw [Turn.ends, hturn]
    rfl
  · rw [Turn.fault?, hturn]

theorem stage_turn (h : Foretold check Stage say) (hs : Stage i s) (n : Nat) :
    Stage (i + n) (turn o check s n).state := by
  induction n with
  | zero => exact hs
  | succ n ih => exact (instant_of_stage h ih).stage

theorem instant_turn (h : Foretold check Stage say) (hs : Stage i s) (n : Nat) :
    Instant o check Stage say (i + n) (turn o check s n) :=
  instant_of_stage h (stage_turn h hs n)

theorem poll_of_first (describe : ε → String) (what : String) (hi : 0 < o.interval)
    (h : Foretold check Stage say) (hs : Stage i s) {k : Nat} {a : α}
    (hfirst : first say i o.checks = some (k, a)) :
    (poll describe what o check s).result = .ok a ∧
      Stage (k + 1) (poll describe what o check s).state := by
  obtain ⟨m, hm, rfl, hk, hnone⟩ := first_eq_some_iff.mp hfirst
  have houtcome : ∀ n, (turn o check s n).outcome? o check = say (i + n) :=
    fun n => (instant_turn h hs n).outcome
  rw [poll_of_outcome describe what hi (fun n => (instant_turn h hs n).ends)
    ((houtcome m).trans hk) (fun j hj => (houtcome j).trans (hnone j hj)) hm]
  exact ⟨rfl, (instant_turn h hs m).stage⟩

theorem poll_of_no_first (describe : ε → String) (what : String) (hi : 0 < o.interval)
    (h : Foretold check Stage say) (hs : Stage i s)
    (hfirst : first say i o.checks = none) :
    (poll describe what o check s).result = .error ⟨what, o.timeout, .ofNat o.checks, none⟩ ∧
      Stage (i + o.checks) (poll describe what o check s).state := by
  have hnone := first_eq_none_iff.mp hfirst
  have hpos := checks_pos o
  have houtcome : ∀ n < o.checks, (turn o check s n).outcome? o check = none :=
    fun n hn => (instant_turn h hs n).outcome.trans (hnone n hn)
  have hclean : lastFault describe o check s o.checks = none :=
    lastFault_eq_none_iff.mpr fun m _ => (instant_turn h hs m).fault describe
  have hstage := (instant_turn (o := o) h hs (o.checks - 1)).stage
  rw [Nat.add_assoc, Nat.sub_add_cancel hpos] at hstage
  rw [poll_of_none describe what hi (fun n => (instant_turn h hs n).ends) houtcome, hclean]
  exact ⟨rfl, hstage⟩

end Poll

/-! ## The wait for a status -/

/-- The state of the first matching status, if that has finished. -/
def finalState? (name : String) (statuses : List CommitStatus) : Option StatusState :=
  ((CommitStatus.find? name statuses).map (·.state)).filter (!·.isPending)

/-- What a wait for a status comes to that sees the reports `seen` one after the other, and how many
of them it takes. -/
def conclusion (name : String) (appear complete : WaitOptions) (seen : Nat → List CommitStatus) :
    Except WaitTimeout StatusState × Nat :=
  match first (fun j => CommitStatus.find? name (seen j)) 0 appear.checks with
  | none => (.error ⟨toAppear name, appear.timeout, .ofNat appear.checks, none⟩, appear.checks)
  | some (i, _) =>
    match first (fun k => finalState? name (seen k)) (i + 1) complete.checks with
    | none =>
      (.error ⟨toComplete name, complete.timeout, .ofNat complete.checks, none⟩,
        i + 1 + complete.checks)
    | some (k, state) => (.ok state, k + 1)

section Status

variable {report : Attempt σ ε (List CommitStatus)} {Stage : Nat → σ → Prop}
  {seen : Nat → List CommitStatus}

theorem finalState?_eq_some_iff {statuses : List CommitStatus} {state : StatusState} :
    finalState? name statuses = some state ↔
      ∃ c, CommitStatus.find? name statuses = some c ∧ c.state.isPending = false ∧
        c.state = state := by
  rw [finalState?, Option.filter_eq_some_iff, Option.map_eq_some_iff]
  constructor
  · rintro ⟨⟨c, hc, rfl⟩, hfinal⟩
    exact ⟨c, hc, Bool.not_eq_true' _ ▸ hfinal, rfl⟩
  · rintro ⟨c, hc, hfinal, rfl⟩
    exact ⟨⟨c, hc, rfl⟩, by rw [hfinal]; rfl⟩

theorem finalState?_eq_none_iff {statuses : List CommitStatus} :
    finalState? name statuses = none ↔
      ∀ c, CommitStatus.find? name statuses = some c → c.state.isPending = true := by
  simp [finalState?]

theorem appeared_foretold (name : String) (h : Foretold report Stage seen) :
    Foretold (appeared name report) Stage fun j =>
      (CommitStatus.find? name (seen j)).map fun _ => () :=
  h.map fun statuses => (CommitStatus.find? name statuses).map fun _ => ()

/-- The stages of phase two from `start` on: a final state in the report before is noted. -/
def Noting (Stage : Nat → σ → Prop) (name : String) (seen : Nat → List CommitStatus) (start : Nat)
    (j : Nat) (u : σ × Option StatusState) : Prop :=
  Stage j u.1 ∧ ∀ k, start ≤ k → k + 1 = j → ∀ state, finalState? name (seen k) = some state →
    u.2 = some state

theorem finished_foretold (name : String) (h : Foretold report Stage seen) (start : Nat) :
    Foretold (finished name report) (Noting Stage name seen start) fun j =>
      (finalState? name (seen j)).map fun _ => () := by
  rintro j ⟨s, noted⟩ ⟨hs, -⟩ limit
  obtain ⟨s', hs', hrun⟩ := h j s hs limit
  have hreport : (finished name report).run limit (s, noted) =
      Attempt.andThen (noteFinished name) ⟨.done (seen j), 0, (s', noted)⟩ := by
    show Attempt.andThen _ (report.onFirst.run limit (s, noted)) = _
    rw [Attempt.onFirst]
    simp only [hrun]
  cases hfinal : finalState? name (seen j) with
  | some state =>
    obtain ⟨c, hc, hdone, rfl⟩ := finalState?_eq_some_iff.mp hfinal
    refine ⟨(s', some c.state), ⟨hs', ?_⟩, ?_⟩
    · rintro k - hk state hstate
      obtain rfl := Nat.succ.inj hk
      exact hfinal.symm.trans hstate
    · rw [hreport]
      simp only [Attempt.andThen, run_noteFinished_of_finished hc hdone, hfinal]
      rfl
  | none =>
    refine ⟨(s', noted), ⟨hs', ?_⟩, ?_⟩
    · rintro k - hk state hstate
      obtain rfl := Nat.succ.inj hk
      rw [hfinal] at hstate
      cases hstate
    · rw [hreport]
      simp only [Attempt.andThen, run_noteFinished_of_pending (finalState?_eq_none_iff.mp hfinal),
        hfinal]
      rfl

theorem noting_begin {i : Nat} {s : σ} (hs : Stage i s) : Noting Stage name seen i i (s, none) :=
  ⟨hs, fun k hk hk' => by omega⟩

/-- What phase two comes to if a report comes in which the status has finished. -/
theorem completed_of_first (describe : ε → String) (hc : 0 < complete.interval)
    (h : Foretold report Stage seen) {i k : Nat} {state : StatusState} {s : σ} (hs : Stage i s)
    (hfirst : first (fun k => finalState? name (seen k)) i complete.checks = some (k, state)) :
    let t := poll describe (toComplete name) complete (finished name report) (s, none)
    t.result = .ok () ∧ Stage (k + 1) t.state.1 ∧ t.state.2 = some state := by
  obtain ⟨hresult, hstage, hnoted⟩ := poll_of_first describe (toComplete name) hc
    (finished_foretold name h i) (noting_begin hs) (k := k) (a := ())
    (by rw [first_map, hfirst]; rfl)
  obtain ⟨m, -, rfl, hfinal, -⟩ := first_eq_some_iff.mp hfirst
  exact ⟨hresult, hstage, hnoted (i + m) (Nat.le_add_right i m) rfl state hfinal⟩

theorem completed_of_no_first (describe : ε → String) (hc : 0 < complete.interval)
    (h : Foretold report Stage seen) {i : Nat} {s : σ} (hs : Stage i s)
    (hfirst : first (fun k => finalState? name (seen k)) i complete.checks = none) :
    let t := poll describe (toComplete name) complete (finished name report) (s, none)
    t.result = .error ⟨toComplete name, complete.timeout, .ofNat complete.checks, none⟩ ∧
      Stage (i + complete.checks) t.state.1 := by
  obtain ⟨hresult, hstage, -⟩ := poll_of_no_first describe (toComplete name) hc
    (finished_foretold name h i) (noting_begin hs) (by rw [first_map, hfirst]; rfl)
  exact ⟨hresult, hstage⟩

/-- A wait for a status over foretold reports comes to what can be read off them, and takes one
report for each check. -/
theorem forStatus_foretold (describe : ε → String) (name : String) (ha : 0 < appear.interval)
    (hc : 0 < complete.interval) (h : Foretold report Stage seen) {s : σ} (hs : Stage 0 s) :
    (forStatus describe name appear complete report s).result =
        (conclusion name appear complete seen).1 ∧
      Stage (conclusion name appear complete seen).2
        (forStatus describe name appear complete report s).state := by
  have happeared := appeared_foretold name h
  rcases hpoll : poll describe (toAppear name) appear (appeared name report) s with ⟨r, d, s'⟩
  cases hfirst : first (fun j => CommitStatus.find? name (seen j)) 0 appear.checks with
  | none =>
    obtain ⟨hresult, hstage⟩ := poll_of_no_first describe (toAppear name) ha happeared hs
      (by rw [first_map, hfirst]; rfl)
    rw [hpoll] at hresult hstage
    obtain rfl : r = _ := hresult
    rw [forStatus_of_error hpoll]
    rw [Nat.zero_add] at hstage
    simp only [conclusion, hfirst, true_and]
    exact hstage
  | some found =>
    obtain ⟨i, c⟩ := found
    obtain ⟨hresult, hstage⟩ := poll_of_first describe (toAppear name) ha happeared hs
      (k := i) (a := ()) (by rw [first_map, hfirst]; rfl)
    rw [hpoll] at hresult hstage
    obtain rfl : r = .ok () := hresult
    rcases hpoll' : poll describe (toComplete name) complete (finished name report) (s', none) with
      ⟨r', d', u⟩
    rw [forStatus_of_ok hpoll hpoll']
    cases hsecond : first (fun k => finalState? name (seen k)) (i + 1) complete.checks with
    | none =>
      obtain ⟨hresult, hstage⟩ := completed_of_no_first describe hc h hstage hsecond
      rw [hpoll'] at hresult hstage
      obtain rfl : r' = _ := hresult
      simp only [conclusion, hfirst, hsecond]
      exact ⟨rfl, hstage⟩
    | some found' =>
      obtain ⟨k, state⟩ := found'
      obtain ⟨hresult, hstage, hnoted⟩ := completed_of_first describe hc h hstage hsecond
      rw [hpoll'] at hresult hstage hnoted
      obtain rfl : r' = .ok () := hresult
      have hstate : u.2 = some state := hnoted
      simp only [conclusion, hfirst, hsecond, hstate]
      exact ⟨rfl, hstage⟩

end Status

end Wait
end ForgeChores
