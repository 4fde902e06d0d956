import ForgeChores.Proofs.Http.Asking

/-!
# ForgeChores.Proofs.Http.Awaiting

Waits whose checks ask once.

Such a wait sends the same request over and over. When it does is settled by the replies alone
(`askedAt`): a request that is cut off is the last one, because it has used up the time to the
deadline. So a wait ends at the first reply that says what is waited for, unless that comes too late
(`AnsweredBy`), or it is given up when its time is over (`Unanswered`).

* `on_ask`, `on_ask_after`: every wait that asks once ends in one of these two ways.
* `on_fail`, `on_pure`: where nothing can be asked, a wait is given up too, or over at once.
-/

namespace ForgeChores
namespace Http

variable {α : Type} {q : Request} {describe : ForgeError → String} {what : String}
  {o : WaitOptions}

/-- When the next request is sent after one that was sent after `elapsed`, if its answer is not cut
off. -/
def askedNext (o : WaitOptions) (elapsed : Nat) (reply : Reply) : Nat :=
  let answered := elapsed + Exchange.waited reply
  answered + min o.interval (o.deadline - answered)

/-- When the `n`-th request of a wait is sent, the first being sent after `elapsed`, if no answer
before it is cut off. -/
def askedAt (o : WaitOptions) : (elapsed : Nat) → (replies : Nat → Reply) → (n : Nat) → Nat
  | elapsed, _, 0 => elapsed
  | elapsed, replies, n + 1 =>
    askedAt o (askedNext o elapsed (replies 0)) (fun i => replies (i + 1)) n

/-- The answer to the `n`-th request comes within the budget of its check. -/
def InTime (o : WaitOptions) (elapsed : Nat) (replies : Nat → Reply) (n : Nat) : Prop :=
  Exchange.waited (replies n) ≤ Wait.budget o (askedAt o elapsed replies n)

/-- The `n`-th reply is the first that says what is waited for, and the wait ends with it. -/
structure AnsweredBy (o : WaitOptions) (answer? : Reply → Option α) (elapsed : Nat)
    (replies : Nat → Reply) (n : Nat) (a : α) (time : Nat) : Prop where
  earlier : ∀ i < n, answer? (replies i) = none
  answer : answer? (replies n) = some a
  inTime : InTime o elapsed replies n
  ends : time = askedAt o elapsed replies n + Exchange.waited (replies n)

/-- No reply up to the `n`-th says in time what is waited for, and the wait is given up. -/
structure Unanswered (what : String) (o : WaitOptions) (answer? : Reply → Option α) (elapsed : Nat)
    (replies : Nat → Reply) (n : Nat) (t : WaitTimeout) (time : Nat) : Prop where
  earlier : ∀ i < n, answer? (replies i) = none
  last : InTime o elapsed replies n → answer? (replies n) = none
  what : t.what = what
  timeout : t.timeout = o.timeout
  timeUp : Wait.IsOver o time t.attempts

/-! ## One check -/

/-- What an answer is to a wait. A failure is "not yet". -/
def outcome? : Except ForgeError (Option α) → Option α
  | .ok r => r
  | .error _ => none

theorem outcome?_eq_some_iff {r : Except ForgeError (Option α)} {a : α} :
    outcome? r = some a ↔ r = .ok (some a) := by
  cases r with
  | ok r => simp [outcome?]
  | error e => simp [outcome?]

/-- Of an answer that is decoded, a wait sees what the reply says to a reader of its body. -/
theorem outcome?_decoded {β : Type} {context : String} {d : Json.Decoder α} (f : α → Option β)
    (reply : Reply) :
    outcome? (((Exchange.outcome context q reply).2 >>= fun r => r.decode context d).map f) =
      (reply.read? d).bind f := by
  have hread : ∀ a, ((Exchange.outcome context q reply).2 >>= fun r => r.decode context d) = .ok a ↔
      reply.read? d = some a := fun a => Exchange.decoded_outcome_eq_ok_iff
  generalize ((Exchange.outcome context q reply).2 >>= fun r => r.decode context d) = decoded
    at hread ⊢
  cases decoded with
  | ok a =>
    rw [(hread a).mp rfl]
    rfl
  | error e =>
    cases hsome : reply.read? d with
    | none => rfl
    | some a => cases (hread a).mpr hsome

variable {read : Reply → Except ForgeError (Option α)} {p p' : Wait.Progress Exchange}
  {r : Option α}

theorem state_of_round_ask (h : Wait.round describe o (ask q read) p = (r, p')) :
    p'.state = p.state.after [q] := by
  rw [Wait.state_of_round h, state_run_ask]

theorem round_ask_of_inTime (h : Wait.round describe o (ask q read) p = (r, p'))
    (htime : InTime o p.elapsed p.state.replyAt 0) :
    r = outcome? (read (p.state.replyAt 0)) ∧
      p'.elapsed = p.elapsed + Exchange.waited (p.state.replyAt 0) := by
  have hlimit : Exchange.waited (p.state.replyAt 0) ≤ Wait.budget o p.elapsed := htime
  simp only [Wait.round, run_ask, Attempt.stepEnding, if_pos hlimit] at h
  cases hread : read (p.state.replyAt 0) with
  | ok outcome =>
    rw [hread] at h
    obtain ⟨rfl, rfl⟩ := Prod.mk.inj h
    exact ⟨rfl, rfl⟩
  | error e =>
    rw [hread] at h
    obtain ⟨rfl, rfl⟩ := Prod.mk.inj h
    exact ⟨rfl, rfl⟩

/-- A request that is cut off has used up the time to the deadline. -/
theorem round_ask_of_late (h : Wait.round describe o (ask q read) p = (r, p'))
    (htime : ¬ InTime o p.elapsed p.state.replyAt 0) : r = none ∧ o.deadline ≤ p'.elapsed := by
  have hlimit : ¬ Exchange.waited (p.state.replyAt 0) ≤ Wait.budget o p.elapsed := htime
  have hrun : (ask q read).run (some (Wait.budget o p.elapsed)) p.state =
      ⟨.cutOff rfl, Wait.budget o p.elapsed, p.state.after [q]⟩ := by
    rw [run_ask, Attempt.stepEnding_of_late hlimit]
  refine ⟨?_, Wait.deadline_le_of_cutOff h (by rw [hrun]; rfl)⟩
  simp only [Wait.round, hrun] at h
  exact (Prod.mk.inj h).1.symm

/-! ## The whole wait -/

section

variable {answer? : Reply → Option α} {elapsed time n : Nat} {replies : Nat → Reply}

theorem earlier_next (hfirst : answer? (replies 0) = none)
    (h : ∀ i < n, answer? (replies (i + 1)) = none) : ∀ i < n + 1, answer? (replies i) = none := by
  intro i hi
  cases i with
  | zero => exact hfirst
  | succ i => exact h i (Nat.lt_of_succ_lt_succ hi)

theorem AnsweredBy.next {a : α} (hfirst : answer? (replies 0) = none)
    (h : AnsweredBy o answer? (askedNext o elapsed (replies 0)) (fun i => replies (i + 1)) n a time) :
    AnsweredBy o answer? elapsed replies (n + 1) a time :=
  ⟨earlier_next hfirst h.earlier, h.answer, h.inTime, h.ends⟩

theorem Unanswered.next {t : WaitTimeout} (hfirst : answer? (replies 0) = none)
    (h : Unanswered what o answer? (askedNext o elapsed (replies 0)) (fun i => replies (i + 1)) n t
      time) : Unanswered what o answer? elapsed replies (n + 1) t time :=
  ⟨earlier_next hfirst h.earlier, h.last, h.what, h.timeout, h.timeUp⟩

end

/-- By the checks of the wait: each but the last asks in vain and is answered in time. -/
theorem poll_ask (describe : ForgeError → String) (what : String) (o : WaitOptions) (q : Request)
    (read : Reply → Except ForgeError (Option α)) (x : Exchange) :
    ∃ n, (Wait.poll describe what o (ask q read) x).state = x.after (List.replicate (n + 1) q) ∧
      match (Wait.poll describe what o (ask q read) x).result with
      | .ok a => AnsweredBy o (fun reply => outcome? (read reply)) 0 x.replyAt n a
          (Wait.poll describe what o (ask q read) x).elapsed
      | .error t => Unanswered what o (fun reply => outcome? (read reply)) 0 x.replyAt n t
          (Wait.poll describe what o (ask q read) x).elapsed := by
  refine Wait.poll_timed_induction (motive := fun p t => ∃ n,
    t.state = p.state.after (List.replicate (n + 1) q) ∧
      match t.result with
      | .ok a => AnsweredBy o (fun reply => outcome? (read reply)) p.elapsed p.state.replyAt n a
          t.elapsed
      | .error d => Unanswered what o (fun reply => outcome? (read reply)) p.elapsed
          p.state.replyAt n d t.elapsed) ?_ ?_ ?_ x
  · intro p p' a hround
    by_cases htime : InTime o p.elapsed p.state.replyAt 0
    · obtain ⟨hanswer, hspent⟩ := round_ask_of_inTime hround htime
      exact ⟨0, state_of_round_ask hround, fun i hi => absurd hi (Nat.not_lt_zero i),
        hanswer.symm, htime, hspent⟩
    · cases (round_ask_of_late hround htime).1
  · intro p p' hround hover
    refine ⟨0, state_of_round_ask hround, fun i hi => absurd hi (Nat.not_lt_zero i), ?_, rfl, rfl,
      hover⟩
    intro htime
    exact (round_ask_of_inTime hround htime).1.symm
  · intro p p' t hround hearly ⟨n, hstate, hresult⟩
    by_cases htime : InTime o p.elapsed p.state.replyAt 0
    · obtain ⟨hnone, hspent⟩ := round_ask_of_inTime hround htime
      have hasked : (p'.paused o).elapsed = askedNext o p.elapsed (p.state.replyAt 0) := by
        simp only [Wait.Progress.paused, hspent, askedNext]
      have hsent : p'.state = p.state.after [q] := state_of_round_ask hround
      have hafter : (p'.paused o).state = p.state.after [q] := hsent
      rw [hafter] at hstate hresult
      rw [hasked, Exchange.replyAt_after_one] at hresult
      refine ⟨n + 1, ?_, ?_⟩
      · rw [hstate, Exchange.after_after]
        rfl
      · cases hend : t.result with
        | ok a =>
          rw [hend] at hresult
          exact AnsweredBy.next hnone.symm hresult
        | error d =>
          rw [hend] at hresult
          exact Unanswered.next hnone.symm hresult
    · exact absurd (round_ask_of_late hround htime).2 (Nat.not_le_of_lt hearly)

theorem on_ask (what : String) (o : WaitOptions) (q : Request)
    (read : Reply → Except ForgeError (Option α)) (x : Exchange) :
    ∃ n, (Wait.on what o (ask q read) x).state = x.after (List.replicate (n + 1) q) ∧
      ((∃ a, (Wait.on what o (ask q read) x).result = .ok a ∧
          AnsweredBy o (fun reply => outcome? (read reply)) 0 x.replyAt n a
            (Wait.on what o (ask q read) x).elapsed) ∨
        ∃ t, (Wait.on what o (ask q read) x).result = .error (.timeout t) ∧
          Unanswered what o (fun reply => outcome? (read reply)) 0 x.replyAt n t
            (Wait.on what o (ask q read) x).elapsed) := by
  obtain ⟨n, hstate, hresult⟩ := poll_ask ForgeError.message what o q read x
  refine ⟨n, hstate, ?_⟩
  show (∃ a, (Wait.poll _ what o (ask q read) x).result.mapError _ = _ ∧ _) ∨
    ∃ t, (Wait.poll _ what o (ask q read) x).result.mapError _ = _ ∧ _
  cases hpoll : (Wait.poll ForgeError.message what o (ask q read) x).result with
  | ok a =>
    rw [hpoll] at hresult
    exact .inl ⟨a, rfl, hresult⟩
  | error t =>
    rw [hpoll] at hresult
    exact .inr ⟨t, rfl, hresult⟩

/-- The same for a wait that comes after other requests, by the replies that they have left. -/
theorem on_ask_after (what : String) (o : WaitOptions) (q : Request)
    (read : Reply → Except ForgeError (Option α)) (x : Exchange) (qs : List Request) :
    let t := Wait.on what o (ask q read) (x.after qs)
    ∃ n, t.state = x.after (qs ++ List.replicate (n + 1) q) ∧
      ((∃ a, t.result = .ok a ∧ AnsweredBy o (fun reply => outcome? (read reply)) 0
          (fun i => x.replyAt (qs.length + i)) n a t.elapsed) ∨
        ∃ d, t.result = .error (.timeout d) ∧
          Unanswered what o (fun reply => outcome? (read reply)) 0
            (fun i => x.replyAt (qs.length + i)) n d t.elapsed) := by
  have hreplies : (x.after qs).replyAt = fun i => x.replyAt (qs.length + i) :=
    funext fun i => x.replyAt_after qs i
  obtain ⟨n, hstate, hresult⟩ := on_ask what o q read (x.after qs)
  rw [Exchange.after_after] at hstate
  rw [hreplies] at hresult
  exact ⟨n, hstate, hresult⟩

/-! ## Waits that cannot ask -/

/-- A wait whose first check has an outcome at once is over at once. -/
theorem on_pure (what : String) (o : WaitOptions) (a : α) (x : Exchange) :
    Wait.on what o (pure (some a) : Attempt Exchange ForgeError (Option α)) x = ⟨.ok a, 0, x⟩ := by
  obtain ⟨n, hn⟩ := Wait.rounds_pos o
  have hpoll : Wait.poll ForgeError.message what o
      (pure (some a) : Attempt Exchange ForgeError (Option α)) x = ⟨.ok a, 0, x⟩ := by
    unfold Wait.poll
    rw [hn]
    rfl
  show Task.mapError _ (Wait.poll _ what o _) x = _
  unfold Task.mapError
  rw [hpoll]
  rfl

/-- A wait whose checks fail before they ask is given up when its time is over, and nothing has
been asked. -/
theorem on_fail (what : String) (o : WaitOptions) (e : ForgeError) (x : Exchange) :
    let t := Wait.on what o (.fail e : Attempt Exchange ForgeError (Option α)) x
    t.state = x ∧ ∃ d, t.result = .error (.timeout d) ∧ d.what = what ∧ d.timeout = o.timeout ∧
      Wait.IsOver o t.elapsed d.attempts := by
  have hpoll : (Wait.poll ForgeError.message what o (.fail e : Attempt _ _ (Option α)) x).state =
        x ∧
      ∃ d, (Wait.poll ForgeError.message what o (.fail e : Attempt _ _ (Option α)) x).result =
          .error d ∧ d.what = what ∧ d.timeout = o.timeout ∧
        Wait.IsOver o (Wait.poll ForgeError.message what o (.fail e : Attempt _ _ (Option α))
          x).elapsed d.attempts := by
    refine Wait.poll_timed_induction (motive := fun p t => t.state = p.state ∧ ∃ d,
      t.result = .error d ∧ d.what = what ∧ d.timeout = o.timeout ∧
        Wait.IsOver o t.elapsed d.attempts) ?_ ?_ ?_ x
    · intro p p' a hround
      cases Wait.round_found hround
    · intro p p' hround hover
      exact ⟨Wait.state_of_round hround, _, rfl, rfl, rfl, hover⟩
    · intro p p' t hround _ ⟨hstate, hend⟩
      exact ⟨hstate.trans (Wait.state_of_round hround), hend⟩
  obtain ⟨hstate, d, hd, hend⟩ := hpoll
  refine ⟨hstate, d, ?_, hend⟩
  show (Wait.poll _ what o _ x).result.mapError _ = _
  rw [hd]
  rfl

end Http
end ForgeChores
