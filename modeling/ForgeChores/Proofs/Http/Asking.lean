import ForgeChores.Proofs.Http.Exchange
import ForgeChores.Proofs.Wait.Polling

/-!
# ForgeChores.Proofs.Http.Asking

Operations as the requests they send, with or without a limit.

A request is remembered and uses up its reply when it is sent, so a limit that cuts off the answer
changes nothing about the exchange. What an exchange has been through is then a list of requests
(`Exchange.after`), and the `n`-th of them is met by a reply that is known beforehand
(`Exchange.replyAt`). An attempt that sends one request is an `ask`: the request and what the reply
to it comes to.

* `send_eq_ask`, `sendEmpty_eq_ask`, `sendJson_eq_ask`, `isThere_eq_ask`: every way of sending asks
  once.
* `ask_bind_ofExcept`, `caught_ask`: a look at the outcome that takes no time is part of the asking.
* `ofAttempt_ask`, `state_run_ask`: what comes of it.
* `ask_bind_of_ok`, `ask_bind_of_error`, `ask_ok_bind` and, under a limit, `run_ask_bind`,
  `run_ask_bind_of_late`: what follows it.
-/

namespace ForgeChores

/-! ## Steps -/

namespace Attempt

variable {σ ε α β : Type}

theorem ext_run {m m' : Attempt σ ε α} (h : ∀ limit s, m.run limit s = m'.run limit s) :
    m = m' := by
  obtain ⟨run, keeps⟩ := m
  obtain ⟨run', keeps'⟩ := m'
  obtain rfl : run = run' := funext fun limit => funext fun s => h limit s
  rfl

theorem stepEnding_of_late {d b : Nat} {r : Except ε α} {s : σ} (h : ¬ d ≤ b) :
    stepEnding d r s (some b) = ⟨.cutOff rfl, b, s⟩ := if_neg h

theorem state_stepEnding {d : Nat} {r : Except ε α} {s : σ} {limit : Option Nat} :
    (stepEnding d r s limit).state = s := by
  unfold stepEnding
  split
  · cases r <;> rfl
  · split
    · cases r <;> rfl
    · rfl

theorem andThen_ofExcept (g : α → Except ε β) (d : Nat) (r : Except ε α) (s : σ)
    (limit : Option Nat) :
    andThen (fun a => ofExcept (g a)) (stepEnding d r s limit) = stepEnding d (r >>= g) s limit := by
  cases limit with
  | none =>
    cases r with
    | error e => rfl
    | ok a =>
      show andThen _ ⟨.done a, d, s⟩ = stepEnding d (g a) s none
      simp only [andThen]
      cases g a <;> rfl
  | some b =>
    by_cases hd : d ≤ b
    · cases r with
      | error e =>
        show andThen _ (if d ≤ b then _ else _) = if d ≤ b then _ else _
        rw [if_pos hd, if_pos hd]
        rfl
      | ok a =>
        show andThen _ (if d ≤ b then _ else _) = stepEnding d (g a) s (some b)
        rw [if_pos hd]
        simp only [andThen, stepEnding, if_pos hd]
        cases g a <;> rfl
    · rw [stepEnding_of_late hd, stepEnding_of_late hd]
      rfl

/-- A step and a look at its value make one step. -/
theorem step_bind_ofExcept (f : σ → Nat × Except ε α × σ) (g : α → Except ε β) :
    (step f >>= fun a => ofExcept (g a)) = step fun s => ((f s).1, (f s).2.1 >>= g, (f s).2.2) :=
  ext_run fun limit s => andThen_ofExcept g (f s).1 (f s).2.1 (f s).2.2 limit

theorem caught_step (f : σ → Nat × Except ε α × σ) :
    (step f).caught = step fun s => ((f s).1, .ok (f s).2.1, (f s).2.2) := by
  refine ext_run fun limit s => ?_
  show catchEnding (stepEnding (f s).1 (f s).2.1 (f s).2.2 limit) =
    stepEnding (f s).1 (.ok (f s).2.1) (f s).2.2 limit
  cases limit with
  | none => cases (f s).2.1 <;> rfl
  | some b =>
    by_cases hd : (f s).1 ≤ b
    · simp only [stepEnding, if_pos hd]
      cases (f s).2.1 <;> rfl
    · rw [stepEnding_of_late hd, stepEnding_of_late hd]
      rfl

end Attempt

/-! ## Requests and the replies to them -/

namespace Exchange

/-- The exchange once the requests have been sent. -/
def after (x : Exchange) (qs : List Request) : Exchange :=
  ⟨x.pending.drop qs.length, x.sent ++ qs.toArray⟩

/-- The reply to the request that is sent after `n` others. -/
def replyAt (x : Exchange) (n : Nat) : Reply := x.pending[n]?.getD exhausted

@[simp] theorem after_nil (x : Exchange) : x.after [] = x := by
  simp [after]

@[simp] theorem after_after (x : Exchange) (qs qs' : List Request) :
    (x.after qs).after qs' = x.after (qs ++ qs') := by
  simp [after]

theorem after_injective (x : Exchange) : Function.Injective x.after := by
  intro qs qs' h
  have hsent : x.sent ++ qs.toArray = x.sent ++ qs'.toArray := congrArg sent h
  exact List.toArray_inj (Array.append_right_inj _ |>.mp hsent)

@[simp] theorem replyAt_after (x : Exchange) (qs : List Request) (n : Nat) :
    (x.after qs).replyAt n = x.replyAt (qs.length + n) := by
  simp [after, replyAt]

theorem replyAt_after_one (x : Exchange) (q : Request) :
    (x.after [q]).replyAt = fun n => x.replyAt (n + 1) := by
  funext n
  rw [replyAt_after, List.length_singleton, Nat.add_comm]

theorem next_eq (x : Exchange) (q : Request) : x.next q = (x.replyAt 0, x.after [q]) := by
  unfold next replyAt after
  cases x.pending <;> simp

end Exchange

namespace Http

variable {α β γ : Type} {context : String} {q : Request} {d : Json.Decoder α}
  {read : Reply → Except ForgeError α}

/-! ## Asking once -/

/-- Sends one request; `read` says what the reply to it comes to. -/
def ask (q : Request) (read : Reply → Except ForgeError α) : Attempt Exchange ForgeError α :=
  .step fun x => (Exchange.waited (x.replyAt 0), read (x.replyAt 0), x.after [q])

theorem ask_bind_ofExcept (g : α → Except ForgeError β) :
    (ask q read >>= fun a => Attempt.ofExcept (g a)) = ask q fun reply => read reply >>= g :=
  Attempt.step_bind_ofExcept _ g

theorem ask_bind_pure (g : α → β) :
    (ask q read >>= fun a => Pure.pure (g a)) = ask q fun reply => (read reply).map g := by
  have h : (ask q read >>= fun a => Attempt.ofExcept (.ok (g a))) = _ := ask_bind_ofExcept _
  refine h.trans (congrArg (ask q) (funext fun reply => ?_))
  cases read reply <;> rfl

theorem caught_ask : (ask q read).caught = ask q fun reply => .ok (read reply) :=
  Attempt.caught_step _

theorem send_eq_ask (hq : q.url.isHttp = true) :
    send context q = ask q fun reply => (Exchange.outcome context q reply).2 := by
  have hwaited : ∀ reply, Exchange.waited reply = (Exchange.outcome context q reply).1 :=
    fun reply => (Exchange.outcome_fst reply).symm
  unfold send ask
  rw [if_pos hq]
  simp only [Exchange.next_eq, hwaited]

theorem sendEmpty_eq_ask (hq : q.url.isHttp = true) :
    sendEmpty context q =
      ask q fun reply => (Exchange.outcome context q reply).2.map fun _ => () := by
  unfold sendEmpty
  rw [send_eq_ask hq]
  exact ask_bind_pure _

theorem sendJson_eq_ask (hq : q.url.isHttp = true) :
    sendJson context d q =
      ask q fun reply => (Exchange.outcome context q reply).2 >>= fun r => r.decode context d := by
  unfold sendJson
  rw [send_eq_ask hq]
  exact ask_bind_ofExcept _

/-- Whether what was asked for is there. -/
def there : Except ForgeError Unit → Except ForgeError Bool
  | .ok () => .ok true
  | .error e => if e.isNotFound then .ok false else .error e

theorem there_eq_true_iff {result : Except ForgeError Unit} :
    there result = .ok true ↔ result = .ok () := by
  cases result with
  | ok _ => simp [there]
  | error e =>
    by_cases he : e.isNotFound = true
    · simp [there, he]
    · simp [there, he]

theorem isThere_eq_ask (hq : q.url.isHttp = true) :
    isThere context q =
      ask q fun reply => there ((Exchange.outcome context q reply).2.map fun _ => ()) := by
  have hcaught : isThere context q =
      ((sendEmpty context q).caught >>= fun r => Attempt.ofExcept (there r)) := by
    unfold isThere
    refine congrArg _ (funext fun r => ?_)
    cases r with
    | ok _ => rfl
    | error e =>
      simp only [there]
      split <;> rfl
  rw [hcaught, sendEmpty_eq_ask hq, caught_ask, ask_bind_ofExcept]
  rfl

/-! ## What comes of it -/

theorem ofAttempt_ask (x : Exchange) :
    Task.ofAttempt (ask q read) x =
      ⟨read (x.replyAt 0), Exchange.waited (x.replyAt 0), x.after [q]⟩ :=
  Task.ofAttempt_step _ x

theorem state_sendEmpty (x : Exchange) :
    (Task.ofAttempt (sendEmpty context q) x).state = x.after (if q.url.isHttp then [q] else []) := by
  by_cases hq : q.url.isHttp = true
  · rw [sendEmpty_eq_ask hq, ofAttempt_ask, if_pos hq]
  · rw [sendEmpty, send_of_not_isHttp hq, if_neg hq, Exchange.after_nil]
    rfl

theorem run_ask (limit : Option Nat) (x : Exchange) :
    (ask q read).run limit x =
      Attempt.stepEnding (Exchange.waited (x.replyAt 0)) (read (x.replyAt 0)) (x.after [q]) limit :=
  rfl

theorem state_run_ask (limit : Option Nat) (x : Exchange) :
    ((ask q read).run limit x).state = x.after [q] := Attempt.state_stepEnding

/-! ## What follows it -/

theorem ask_bind_of_ok {f : α → Task Exchange ForgeError β} {x : Exchange} {a : α}
    (h : read (x.replyAt 0) = .ok a) :
    ((Task.ofAttempt (ask q read) >>= f) x).result = (f a (x.after [q])).result ∧
    ((Task.ofAttempt (ask q read) >>= f) x).state = (f a (x.after [q])).state := by
  have hask : Task.ofAttempt (ask q read) x = _ := ofAttempt_ask x
  rw [h] at hask
  rw [Task.bind_of_ok hask]
  exact ⟨rfl, rfl⟩

theorem ask_ok_bind {look : Reply → γ} {f : γ → Task Exchange ForgeError β} {x : Exchange} :
    (Task.ofAttempt (ask q fun reply => .ok (look reply)) >>= f) x =
      ⟨(f (look (x.replyAt 0)) (x.after [q])).result,
        Exchange.waited (x.replyAt 0) + (f (look (x.replyAt 0)) (x.after [q])).elapsed,
        (f (look (x.replyAt 0)) (x.after [q])).state⟩ :=
  Task.bind_of_ok (ofAttempt_ask x)

theorem ask_bind_of_error {f : α → Task Exchange ForgeError β} {x : Exchange} {e : ForgeError}
    (h : read (x.replyAt 0) = .error e) :
    ((Task.ofAttempt (ask q read) >>= f) x).result = .error e ∧
    ((Task.ofAttempt (ask q read) >>= f) x).state = x.after [q] := by
  have hask : Task.ofAttempt (ask q read) x = _ := ofAttempt_ask x
  rw [h] at hask
  rw [Task.bind_of_error hask]
  exact ⟨rfl, rfl⟩

/-- A look at the outcome that takes no time may be put before what follows or into the asking. -/
theorem ask_bind_ofExcept_bind (g : α → Except ForgeError β) (f : β → Task Exchange ForgeError γ) :
    (Task.ofAttempt (ask q read) >>= fun a => Task.ofExcept (g a) >>= f) =
      Task.ofAttempt (ask q fun reply => read reply >>= g) >>= f := by
  rw [← ask_bind_ofExcept, Task.ofAttempt_bind, Task.bind_assoc]
  simp only [Task.ofAttempt_ofExcept]

theorem send_bind_ofExcept (hq : q.url.isHttp = true) (g : Response → Except ForgeError α)
    (f : α → Task Exchange ForgeError β) :
    (Task.ofAttempt (send context q) >>= fun r => Task.ofExcept (g r) >>= f) =
      Task.ofAttempt (ask q fun reply => (Exchange.outcome context q reply).2 >>= g) >>= f := by
  rw [send_eq_ask hq]
  exact ask_bind_ofExcept_bind g f

/-! ## Attempts that ask first -/

theorem run_ask_bind_of_late {f : α → Attempt Exchange ForgeError β} {x : Exchange} {b : Nat}
    (h : ¬ Exchange.waited (x.replyAt 0) ≤ b) :
    (ask q read >>= f).run (some b) x = ⟨.cutOff rfl, b, x.after [q]⟩ := by
  show Attempt.andThen f ((ask q read).run (some b) x) = _
  rw [run_ask, Attempt.stepEnding_of_late h]
  rfl

theorem run_ask_bind {look : Reply → γ} {f : γ → Attempt Exchange ForgeError β} {x : Exchange}
    {b : Nat} (h : Exchange.waited (x.replyAt 0) ≤ b) :
    let t := (f (look (x.replyAt 0))).run (some (b - Exchange.waited (x.replyAt 0))) (x.after [q])
    (ask q (fun reply => .ok (look reply)) >>= f).run (some b) x =
      ⟨t.result.widen, Exchange.waited (x.replyAt 0) + t.elapsed, t.state⟩ := by
  show Attempt.andThen f ((ask q fun reply => .ok (look reply)).run (some b) x) = _
  rw [run_ask, Attempt.stepEnding, if_pos h]
  rfl

end Http
end ForgeChores
