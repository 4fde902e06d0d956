import ForgeChores.Proofs.Activity
import ForgeChores.Wait

/-!
# ForgeChores.Proofs.Wait.Polling

Polling ends, and when. `Wait.loop` counts down from `Wait.rounds`; `Polling` is the same loop
with nothing to count, so it may go on for ever, and it records the progress with which each
check begins.

* `poll_timed_induction`: a wait check by check, with the time of each. The count ends it only if
  there is no interval (`IsOver`).
* `polling_poll`: for an interval other than zero every wait has a course, and for any interval
  `polling_poll_of_ok` says so of a wait with an outcome.
* `Polling.of_ok`, `Polling.of_error`: an outcome is that of the last check and of no check before
  it; a wait that is given up has met none.
* `Polling.deterministic`: a wait has one course.
* `poll_bounded`: a wait is over one interval after its deadline at the latest, begins no check
  past the deadline and no more checks than intervals fit, and gives up only at the deadline.

What carries the bounds is `roundsLeft`: each pause takes one from it, the last pause too, which
is cut short by the deadline.
-/

namespace ForgeChores

/-- The longest that a wait can take: one interval past its deadline. -/
def WaitOptions.longest (o : WaitOptions) : Nat := o.deadline + o.interval

namespace Wait

variable {σ ε α : Type} {describe : ε → String} {what : String} {o : WaitOptions}
  {check : Attempt σ ε (Option α)}

/-- Where a wait stands after the pause that follows `p`. -/
def Progress.paused (o : WaitOptions) (p : Progress σ) : Progress σ :=
  { p with elapsed := p.elapsed + min o.interval (o.deadline - p.elapsed) }

/-- From `p` on, checks begin at `begun`, one after the other, and `t` comes of the wait. -/
inductive Polling (describe : ε → String) (what : String) (o : WaitOptions)
    (check : Attempt σ ε (Option α)) :
    Progress σ → List (Progress σ) → Timed σ (Except WaitTimeout α) → Prop where
  | found {p q : Progress σ} {a : α} : round describe o check p = (some a, q) →
      Polling describe what o check p [p] ⟨.ok a, q.elapsed, q.state⟩
  | gaveUp {p q : Progress σ} : round describe o check p = (none, q) → o.deadline ≤ q.elapsed →
      Polling describe what o check p [p]
        ⟨.error ⟨what, o.timeout, q.attempts, q.lastError⟩, q.elapsed, q.state⟩
  | again {p q : Progress σ} {begun : List (Progress σ)} {t : Timed σ (Except WaitTimeout α)} :
      round describe o check p = (none, q) → q.elapsed < o.deadline →
      Polling describe what o check (q.paused o) begun t →
      Polling describe what o check p (p :: begun) t

/-! ## One round -/

/-- What a check comes to for a wait. A failed check and one that is cut off are "not yet". -/
def found? {limit : Option Nat} : Ending ε (Option α) limit → Option α
  | .done outcome => outcome
  | _ => none

theorem found?_of_isCutOff {limit : Option Nat} {e : Ending ε (Option α) limit}
    (h : e.isCutOff = true) : found? e = none := by
  cases e with
  | cutOff _ => rfl
  | done _ => cases h
  | failed _ => cases h

theorem round_fst (describe : ε → String) (o : WaitOptions) (check : Attempt σ ε (Option α))
    (p : Progress σ) : (round describe o check p).1 =
      found? (check.run (some (budget o p.elapsed)) p.state).result := by
  simp only [round]
  rcases check.run (some (budget o p.elapsed)) p.state with
    ⟨_ | _ | _, spent, s⟩ <;> rfl

theorem round_elapsed {p q : Progress σ} {r : Option α} (h : round describe o check p = (r, q)) :
    p.elapsed ≤ q.elapsed ∧ q.elapsed ≤ p.elapsed + budget o p.elapsed := by
  have hkeeps := check.keeps (some (budget o p.elapsed)) p.state _ rfl
  simp only [round] at h
  rcases hrun : check.run (some (budget o p.elapsed)) p.state with
    ⟨_ | _ | _, spent, s⟩ <;>
  · rw [hrun] at hkeeps h
    simp only [Prod.mk.injEq] at h hkeeps
    obtain ⟨-, rfl⟩ := h
    exact ⟨Nat.le_add_right _ _, Nat.add_le_add_left hkeeps.1 _⟩

/-- The budget of a check that begins in time ends one interval after the deadline at most. -/
theorem add_budget_le {elapsed : Nat} (h : elapsed ≤ o.deadline) :
    elapsed + budget o elapsed ≤ o.deadline + o.interval := by
  unfold budget
  omega

theorem paused_le {q : Progress σ} (h : q.elapsed < o.deadline) :
    (q.paused o).elapsed ≤ o.deadline := by
  simp only [Progress.paused]
  omega

theorem round_found {p q : Progress σ} {a : α} (h : round describe o check p = (some a, q)) :
    (check.run (some (budget o p.elapsed)) p.state).result =
      .done (some a) := by
  simp only [round] at h
  rcases hrun : check.run (some (budget o p.elapsed)) p.state with
    ⟨outcome | _ | _, spent, s⟩
  · rw [hrun] at h; cases h; rfl
  · rw [hrun] at h; cases h
  · rw [hrun] at h; cases h

theorem state_of_round {p q : Progress σ} {r : Option α} (h : round describe o check p = (r, q)) :
    q.state = (check.run (some (budget o p.elapsed)) p.state).state := by
  simp only [round] at h
  rcases hrun : check.run (some (budget o p.elapsed)) p.state with
    ⟨_ | _ | _, spent, s⟩ <;>
  · rw [hrun] at h
    obtain ⟨-, rfl⟩ := Prod.mk.inj h
    rfl

/-- A check that is cut off has used up the time to the deadline. -/
theorem deadline_le_of_cutOff {p q : Progress σ} {r : Option α}
    (h : round describe o check p = (r, q))
    (hcut : (check.run (some (budget o p.elapsed)) p.state).result.isCutOff = true) :
    o.deadline ≤ q.elapsed := by
  have hspent := (check.keeps (some (budget o p.elapsed)) p.state _ rfl).2 hcut
  have helapsed : q.elapsed = p.elapsed + budget o p.elapsed := by
    rw [← hspent]
    simp only [round] at h
    rcases hrun : check.run (some (budget o p.elapsed)) p.state with
      ⟨_ | _ | _, spent, s⟩ <;>
    · rw [hrun] at h
      obtain ⟨-, rfl⟩ := Prod.mk.inj h
      rfl
  have hbudget : o.deadline - p.elapsed ≤ budget o p.elapsed := Nat.le_max_left _ _
  omega

/-! ## How many rounds are left -/

/-- How many checks fit when one begins `elapsed` after the wait did. -/
def roundsLeft (o : WaitOptions) (elapsed : Nat) : Nat :=
  (o.deadline - elapsed + o.interval - 1) / o.interval + 1

theorem rounds_eq (h : 0 < o.interval) : rounds o = roundsLeft o 0 := by
  have hne : o.interval ≠ 0 := by omega
  simp [rounds, roundsLeft, hne]

/-- A round and the pause after it take one from the rounds that are left. -/
theorem roundsLeft_paused (hi : 0 < o.interval) {p q : Progress σ} (hpq : p.elapsed ≤ q.elapsed)
    (hq : q.elapsed < o.deadline) :
    roundsLeft o (q.paused o).elapsed + 1 ≤ roundsLeft o p.elapsed := by
  unfold roundsLeft Progress.paused
  simp only
  by_cases hfits : o.interval ≤ o.deadline - q.elapsed
  · -- a whole interval passes
    rw [Nat.min_eq_left hfits]
    have hle : (o.deadline - (q.elapsed + o.interval) + o.interval - 1) + o.interval ≤
        o.deadline - p.elapsed + o.interval - 1 := by omega
    have := Nat.div_le_div_right (c := o.interval) hle
    rw [Nat.add_div_right _ hi] at this
    omega
  · -- the pause ends at the deadline, and one check is left
    rw [Nat.min_eq_right (by omega)]
    have hlast : o.deadline - (q.elapsed + (o.deadline - q.elapsed)) + o.interval - 1 <
        o.interval := by omega
    rw [Nat.div_eq_of_lt hlast]
    have := Nat.div_pos (a := o.deadline - p.elapsed + o.interval - 1) (b := o.interval)
      (by omega) hi
    omega

/-! ## Waits check by check -/

theorem rounds_pos (o : WaitOptions) : ∃ n, rounds o = n + 1 := by
  unfold rounds
  split
  · exact ⟨Nat.pow 2 32 - 2, by decide⟩
  · exact ⟨_, rfl⟩

theorem round_attempts {p q : Progress σ} {r : Option α}
    (h : round describe o check p = (r, q)) : q.attempts = p.attempts + 1 := by
  simp only [round] at h
  rcases hrun : check.run (some (budget o p.elapsed)) p.state with
    ⟨_ | _ | _, spent, s⟩ <;>
  · rw [hrun] at h
    obtain ⟨-, rfl⟩ := Prod.mk.inj h
    rfl

/-- Below its end the counter goes up by one. -/
theorem toNat_attempts_of_round {p q : Progress σ} {r : Option α}
    (h : round describe o check p = (r, q)) (hroom : p.attempts.toNat + 1 < Nat.pow 2 32) :
    q.attempts.toNat = p.attempts.toNat + 1 := by
  rw [round_attempts h, UInt32.toNat_add]
  exact Nat.mod_eq_of_lt hroom

/-- When a wait is over without an outcome: from its deadline on. Without an interval its time may
stand still, and then it is over when the counter of attempts has no more to give. -/
def IsOver (o : WaitOptions) (elapsed : Nat) (attempts : UInt32) : Prop :=
  o.deadline ≤ elapsed ∨ o.interval = 0 ∧ attempts.toNat = Nat.pow 2 32 - 1

/-- How many rounds a loop may have left for the count never to end it before its time. -/
def EnoughRounds (o : WaitOptions) (n : Nat) (p : Progress σ) : Prop :=
  if o.interval = 0 then n + p.attempts.toNat = Nat.pow 2 32 - 1 else roundsLeft o p.elapsed ≤ n

theorem enoughRounds_start (o : WaitOptions) (s : σ) : EnoughRounds o (rounds o) ⟨0, 0, none, s⟩ := by
  unfold EnoughRounds
  by_cases hi : o.interval = 0
  · simp only [rounds, if_pos hi]
    rfl
  · rw [if_neg hi]
    exact Nat.le_of_eq (rounds_eq (Nat.pos_of_ne_zero hi)).symm

theorem EnoughRounds.next {n : Nat} {p q : Progress σ} {r : Option α}
    (h : EnoughRounds o (n + 1) p) (hround : round describe o check p = (r, q))
    (hq : q.elapsed < o.deadline) : EnoughRounds o n (q.paused o) := by
  unfold EnoughRounds at h ⊢
  by_cases hi : o.interval = 0
  · rw [if_pos hi] at h ⊢
    have hone := toNat_attempts_of_round hround (by omega)
    simp only [Progress.paused]
    omega
  · rw [if_neg hi] at h ⊢
    have hleft := roundsLeft_paused (Nat.pos_of_ne_zero hi) (round_elapsed hround).1 hq
    omega

/-- With no round left before the deadline there is no interval, and the counter is at its end. -/
theorem EnoughRounds.isOver {p q : Progress σ} {r : Option α} (h : EnoughRounds o 1 p)
    (hround : round describe o check p = (r, q)) (hq : q.elapsed < o.deadline) :
    o.interval = 0 ∧ q.attempts.toNat = Nat.pow 2 32 - 1 := by
  have hnext := h.next hround hq
  unfold EnoughRounds at hnext
  by_cases hi : o.interval = 0
  · rw [if_pos hi, Nat.zero_add] at hnext
    exact ⟨hi, hnext⟩
  · rw [if_neg hi] at hnext
    exact absurd hnext (Nat.not_succ_le_zero _)

/-- What holds of a wait that ends with a check, and of one that goes on after a check if it holds
of the rest, holds of every wait. -/
theorem poll_timed_induction {motive : Progress σ → Timed σ (Except WaitTimeout α) → Prop}
    (found : ∀ {p q : Progress σ} {a : α}, round describe o check p = (some a, q) →
      motive p ⟨.ok a, q.elapsed, q.state⟩)
    (gaveUp : ∀ {p q : Progress σ}, round describe o check p = (none, q) →
      IsOver o q.elapsed q.attempts →
      motive p ⟨.error ⟨what, o.timeout, q.attempts, q.lastError⟩, q.elapsed, q.state⟩)
    (again : ∀ {p q : Progress σ} {t : Timed σ (Except WaitTimeout α)},
      round describe o check p = (none, q) → q.elapsed < o.deadline → motive (q.paused o) t →
      motive p t)
    (s : σ) : motive ⟨0, 0, none, s⟩ (poll describe what o check s) := by
  have hloop : ∀ (n : Nat) (p : Progress σ), EnoughRounds o (n + 1) p →
      motive p (loop describe what o check (n + 1) p) := by
    intro n
    induction n with
    | zero =>
      intro p henough
      rcases hround : round describe o check p with ⟨_ | a, q⟩
      · rw [loop, hround]
        simp only
        split
        · rename_i hd
          exact gaveUp hround (.inl hd)
        · rename_i hd
          have hover := henough.isOver hround (Nat.lt_of_not_le hd)
          have hend := gaveUp hround (.inr hover)
          -- the pause that was left out takes no time
          simpa only [loop, hover.1, Nat.zero_min, Nat.add_zero] using hend
      · rw [loop, hround]
        exact found hround
    | succ n ih =>
      intro p henough
      rcases hround : round describe o check p with ⟨_ | a, q⟩
      · rw [loop, hround]
        simp only
        split
        · rename_i hd
          exact gaveUp hround (.inl hd)
        · rename_i hd
          have hq : q.elapsed < o.deadline := Nat.lt_of_not_le hd
          exact again hround hq (ih (q.paused o) (henough.next hround hq))
      · rw [loop, hround]
        exact found hround
  obtain ⟨n, hn⟩ := rounds_pos o
  have hstart := enoughRounds_start o s
  unfold poll
  rw [hn] at hstart ⊢
  exact hloop n ⟨0, 0, none, s⟩ hstart

/-- The same where time does not matter. -/
theorem poll_induction {motive : Progress σ → Except WaitTimeout α → σ → Prop}
    (found : ∀ {p q : Progress σ} {a : α}, round describe o check p = (some a, q) →
      motive p (.ok a) q.state)
    (gaveUp : ∀ {p q : Progress σ}, round describe o check p = (none, q) →
      motive p (.error ⟨what, o.timeout, q.attempts, q.lastError⟩) q.state)
    (again : ∀ {p q : Progress σ} {r : Except WaitTimeout α} {s : σ},
      round describe o check p = (none, q) → q.elapsed < o.deadline → motive (q.paused o) r s →
      motive p r s)
    (s : σ) :
    motive ⟨0, 0, none, s⟩ (poll describe what o check s).result
      (poll describe what o check s).state :=
  poll_timed_induction (motive := fun p t => motive p t.result t.state) found
    (fun hround _ => gaveUp hround) again s

/-! ## The count never ends the loop -/

/-- With an interval a wait is over at its deadline and never before. -/
theorem IsOver.deadline_le {elapsed : Nat} {attempts : UInt32} (h : IsOver o elapsed attempts)
    (hi : 0 < o.interval) : o.deadline ≤ elapsed := by
  rcases h with hd | ⟨hzero, -⟩
  · exact hd
  · exact absurd hzero (Nat.ne_of_gt hi)

theorem polling_poll (hi : 0 < o.interval) (s : σ) :
    ∃ begun, Polling describe what o check ⟨0, 0, none, s⟩ begun
      (poll describe what o check s) := by
  refine poll_timed_induction (motive := fun p t => ∃ begun,
    Polling describe what o check p begun t) ?_ ?_ ?_ s
  · intro p q a hround
    exact ⟨[p], .found hround⟩
  · intro p q hround hover
    exact ⟨[p], .gaveUp hround (hover.deadline_le hi)⟩
  · intro p q t hround hq ⟨begun, hbegun⟩
    exact ⟨p :: begun, .again hround hq hbegun⟩

/-- Even where the count may end the loop, it does not if there is an outcome. -/
theorem polling_loop_of_ok {a : α} {n : Nat} {p : Progress σ}
    (h : (loop describe what o check n p).result = .ok a) :
    ∃ begun, Polling describe what o check p begun (loop describe what o check n p) := by
  induction n generalizing p with
  | zero => cases h
  | succ n ih =>
    rcases hround : round describe o check p with ⟨_ | a', q⟩
    · simp only [loop, hround] at h ⊢
      by_cases hd : o.deadline ≤ q.elapsed
      · rw [if_pos hd] at h
        cases h
      · rw [if_neg hd] at h ⊢
        obtain ⟨begun, hbegun⟩ := ih h
        exact ⟨p :: begun, .again hround (Nat.lt_of_not_le hd) hbegun⟩
    · refine ⟨[p], ?_⟩
      simp only [loop, hround]
      exact .found hround

theorem polling_poll_of_ok {a : α} {s : σ} (h : (poll describe what o check s).result = .ok a) :
    ∃ begun, Polling describe what o check ⟨0, 0, none, s⟩ begun
      (poll describe what o check s) := polling_loop_of_ok h

/-! ## What every course keeps -/

namespace Polling

variable {p : Progress σ} {begun : List (Progress σ)} {t : Timed σ (Except WaitTimeout α)}

theorem deterministic {begun' : List (Progress σ)} {t' : Timed σ (Except WaitTimeout α)}
    (h : Polling describe what o check p begun t)
    (h' : Polling describe what o check p begun' t') : begun = begun' ∧ t = t' := by
  induction h generalizing begun' t' with
  | found hr =>
    cases h' with
    | found hr' => rw [hr] at hr'; cases hr'; exact ⟨rfl, rfl⟩
    | gaveUp hr' _ => rw [hr] at hr'; cases hr'
    | again hr' _ _ => rw [hr] at hr'; cases hr'
  | gaveUp hr hd =>
    cases h' with
    | found hr' => rw [hr] at hr'; cases hr'
    | gaveUp hr' _ => rw [hr] at hr'; cases hr'; exact ⟨rfl, rfl⟩
    | again hr' hd' _ => rw [hr] at hr'; cases hr'; omega
  | again hr hd _ ih =>
    cases h' with
    | found hr' => rw [hr] at hr'; cases hr'
    | gaveUp hr' hd' => rw [hr] at hr'; cases hr'; omega
    | again hr' _ hrest =>
      rw [hr] at hr'
      cases hr'
      obtain ⟨hb, ht⟩ := ih hrest
      exact ⟨by rw [hb], ht⟩

theorem begun_le (h : Polling describe what o check p begun t) (hp : p.elapsed ≤ o.deadline) :
    ∀ c ∈ begun, c.elapsed ≤ o.deadline := by
  induction h with
  | found _ => simpa using hp
  | gaveUp _ _ => simpa using hp
  | again _ hd _ ih =>
    intro c hc
    rcases List.mem_cons.mp hc with rfl | hc
    · exact hp
    · exact ih (paused_le hd) c hc

theorem length_le (hi : 0 < o.interval) (h : Polling describe what o check p begun t) :
    begun.length ≤ roundsLeft o p.elapsed := by
  induction h with
  | found _ => simp [roundsLeft]
  | gaveUp _ _ => simp [roundsLeft]
  | again hr hd _ ih =>
    have hleft := roundsLeft_paused hi (round_elapsed hr).1 hd
    simp only [List.length_cons]
    omega

theorem elapsed_le (h : Polling describe what o check p begun t) (hp : p.elapsed ≤ o.deadline) :
    t.elapsed ≤ o.deadline + o.interval := by
  induction h with
  | found hr => exact Nat.le_trans (round_elapsed hr).2 (add_budget_le hp)
  | gaveUp hr _ => exact Nat.le_trans (round_elapsed hr).2 (add_budget_le hp)
  | again _ hd _ ih => exact ih (paused_le hd)

theorem deadline_le {e : WaitTimeout} (h : Polling describe what o check p begun t)
    (he : t.result = .error e) : o.deadline ≤ t.elapsed := by
  induction h with
  | found _ => cases he
  | gaveUp _ hd => exact hd
  | again _ _ _ ih => exact ih he

/-- An outcome is that of the last check, and no check before it has one. -/
theorem of_ok {a : α} (h : Polling describe what o check p begun t) (ht : t.result = .ok a) :
    ∃ earlier last q, begun = earlier ++ [last] ∧
      (∀ c ∈ earlier, (round describe o check c).1 = none) ∧
      round describe o check last = (some a, q) ∧ t.state = q.state := by
  induction h with
  | found hr =>
    cases ht
    exact ⟨[], _, _, rfl, by simp, hr, rfl⟩
  | gaveUp _ _ => cases ht
  | again hr _ _ ih =>
    obtain ⟨earlier, last, q, rfl, hnone, hlast, hstate⟩ := ih ht
    refine ⟨_ :: earlier, last, q, rfl, ?_, hlast, hstate⟩
    intro c hc
    rcases List.mem_cons.mp hc with rfl | hc
    · rw [hr]
    · exact hnone c hc

/-- A wait that is given up has begun checks, and none of them has an outcome. -/
theorem of_error {e : WaitTimeout} (h : Polling describe what o check p begun t)
    (ht : t.result = .error e) :
    e.what = what ∧ begun ≠ [] ∧ ∀ c ∈ begun, (round describe o check c).1 = none := by
  induction h with
  | found _ => cases ht
  | gaveUp hr _ =>
    cases ht
    exact ⟨rfl, by simp, by simp [hr]⟩
  | again hr _ _ ih =>
    obtain ⟨hwhat, -, hnone⟩ := ih ht
    refine ⟨hwhat, by simp, ?_⟩
    intro c hc
    rcases List.mem_cons.mp hc with rfl | hc
    · rw [hr]
    · exact hnone c hc

end Polling

/-- What a wait ends with is the outcome of one of its checks. -/
theorem check_of_poll_ok {a : α} {s : σ} (h : (poll describe what o check s).result = .ok a) :
    ∃ limit s, (check.run limit s).result = .done (some a) := by
  obtain ⟨begun, hbegun⟩ := polling_poll_of_ok h
  obtain ⟨_, last, _, _, _, hlast, _⟩ := hbegun.of_ok h
  exact ⟨_, _, round_found hlast⟩

/-! ## The bounds of a wait -/

/-- Whatever the count, a loop that begins in time is over one interval after the deadline. -/
theorem loop_elapsed_le {n : Nat} {p : Progress σ} (hp : p.elapsed ≤ o.deadline) :
    (loop describe what o check n p).elapsed ≤ o.longest := by
  induction n generalizing p with
  | zero => exact Nat.le_add_right_of_le hp
  | succ n ih =>
    rcases hround : round describe o check p with ⟨_ | a, q⟩
    · by_cases hd : o.deadline ≤ q.elapsed
      · simp only [loop, hround, if_pos hd]
        exact Nat.le_trans (round_elapsed hround).2 (add_budget_le hp)
      · simp only [loop, hround, if_neg hd]
        exact ih (paused_le (Nat.lt_of_not_le hd))
    · simp only [loop, hround]
      exact Nat.le_trans (round_elapsed hround).2 (add_budget_le hp)

theorem poll_within : (poll describe what o check).Within o.longest :=
  fun _ => loop_elapsed_le (Nat.zero_le _)

/-- Every wait with an interval has exactly one course, however its checks behave, and is held to
its bounds. -/
theorem poll_bounded (describe : ε → String) (what : String) (o : WaitOptions)
    (check : Attempt σ ε (Option α)) (s : σ) (hi : 0 < o.interval) :
    ∃ begun,
      Polling describe what o check ⟨0, 0, none, s⟩ begun (poll describe what o check s) ∧
      (∀ begun' t', Polling describe what o check ⟨0, 0, none, s⟩ begun' t' →
        begun' = begun ∧ t' = poll describe what o check s) ∧
      (poll describe what o check s).elapsed ≤ o.deadline + o.interval ∧
      (∀ c ∈ begun, c.elapsed ≤ o.deadline) ∧
      begun.length ≤ (o.deadline + o.interval - 1) / o.interval + 1 ∧
      ∀ e, (poll describe what o check s).result = .error e →
        o.deadline ≤ (poll describe what o check s).elapsed := by
  have hcourse : ∃ begun, Polling describe what o check ⟨0, 0, none, s⟩ begun
      (poll describe what o check s) := polling_poll hi s
  obtain ⟨begun, h⟩ := hcourse
  refine ⟨begun, h, ?_, h.elapsed_le (Nat.zero_le _), h.begun_le (Nat.zero_le _), ?_, ?_⟩
  · intro begun' t' h'
    exact h'.deterministic h
  · have hlen := h.length_le hi
    simpa [roundsLeft] using hlen
  · intro e he
    exact h.deadline_le he

/-- Says "not yet" twice at once; from the third check on it takes longer than any budget here. -/
def hangsAtThird : Attempt Nat String (Option Unit) :=
  .step fun n => (if n < 2 then 0 else 1000, .ok none, n + 1)

/-- The bounds are met: a check that hangs from the deadline on is the third of three and is cut
off one interval later. -/
theorem poll_bounded_met :
    0 < (WaitOptions.mk 1 2).interval ∧
      (poll id "the third check" ⟨1, 2⟩ hangsAtThird 0).elapsed = 2 + 1 ∧
      ∃ begun,
        Polling id "the third check" ⟨1, 2⟩ hangsAtThird ⟨0, 0, none, 0⟩ begun
          (poll id "the third check" ⟨1, 2⟩ hangsAtThird 0) ∧
        begun.length ≤ 3 := by
  refine ⟨by decide, by decide, ?_⟩
  obtain ⟨begun, h, -, -, -, hlen, -⟩ :=
    poll_bounded id "the third check" ⟨1, 2⟩ hangsAtThird 0 (by decide)
  exact ⟨begun, h, hlen⟩

end Wait
end ForgeChores
