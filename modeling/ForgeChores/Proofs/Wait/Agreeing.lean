import ForgeChores.Proofs.Activity
import ForgeChores.Wait.Status

/-!
# ForgeChores.Proofs.Wait.Agreeing

One activity in two runs, from states that are related.

An activity agrees over a relation if it ends alike from related states, in the same time, and leaves
related states behind. What is put together from parts that agree agrees itself, and so does a wait
whose check agrees (`poll_agrees`), the wait for a status with it (`forStatus_agrees`).
-/

namespace ForgeChores

variable {σ τ ε δ α β ρ : Type} {R : σ → σ → Prop}

/-- The same comes of both in the same time, and they leave related states behind. -/
structure Timed.Alike (R : σ → σ → Prop) (a b : Timed σ ρ) : Prop where
  result : a.result = b.result
  elapsed : a.elapsed = b.elapsed
  state : R a.state b.state

def Attempt.Agrees (R : σ → σ → Prop) (m : Attempt σ ε α) : Prop :=
  ∀ limit s t, R s t → (m.run limit s).Alike R (m.run limit t)

def Task.Agrees (R : σ → σ → Prop) (m : Task σ ε α) : Prop :=
  ∀ s t, R s t → (m s).Alike R (m t)

/-- `R` on the first part of a state, and the same in the second. -/
def Beside (R : σ → σ → Prop) (s t : σ × τ) : Prop := R s.1 t.1 ∧ s.2 = t.2

namespace Attempt

theorem agrees_pure (a : α) : (Pure.pure a : Attempt σ ε α).Agrees R :=
  fun _ _ _ h => ⟨rfl, rfl, h⟩

theorem agrees_step {f : σ → Nat × Except ε α × σ}
    (h : ∀ s t, R s t → (f s).1 = (f t).1 ∧ (f s).2.1 = (f t).2.1 ∧ R (f s).2.2 (f t).2.2) :
    (step f).Agrees R := by
  intro limit s t hst
  obtain ⟨htime, hresult, hstate⟩ := h s t hst
  show (stepEnding _ _ _ limit).Alike R (stepEnding _ _ _ limit)
  rw [htime, hresult]
  cases limit with
  | none => cases (f t).2.1 <;> exact ⟨rfl, rfl, hstate⟩
  | some b =>
    unfold stepEnding
    simp only
    split
    · cases (f t).2.1 <;> exact ⟨rfl, rfl, hstate⟩
    · exact ⟨rfl, rfl, hstate⟩

theorem Agrees.bind {m : Attempt σ ε α} {f : α → Attempt σ ε β} (hm : m.Agrees R)
    (hf : ∀ a, (f a).Agrees R) : (m >>= f).Agrees R := by
  intro limit s t hst
  show (andThen f (m.run limit s)).Alike R (andThen f (m.run limit t))
  have hfirst := hm limit s t hst
  generalize m.run limit s = a at hfirst ⊢
  generalize m.run limit t = b at hfirst ⊢
  obtain ⟨r, spent, s'⟩ := a
  obtain ⟨r', spent', t'⟩ := b
  obtain ⟨rfl, rfl, hstate⟩ := hfirst
  cases r with
  | done a =>
    have hsecond := hf a (limit.map (· - spent)) s' t' hstate
    exact ⟨congrArg Ending.widen hsecond.result, congrArg (spent + ·) hsecond.elapsed,
      hsecond.state⟩
  | failed e => exact ⟨rfl, rfl, hstate⟩
  | cutOff h => exact ⟨rfl, rfl, hstate⟩

theorem Agrees.onFirst {m : Attempt σ ε α} (hm : m.Agrees R) :
    (m.onFirst : Attempt (σ × τ) ε α).Agrees (Beside R) := by
  intro limit s t hst
  have hfirst := hm limit s.1 t.1 hst.1
  exact ⟨hfirst.result, hfirst.elapsed, hfirst.state, hst.2⟩

end Attempt

namespace Task

theorem agrees_pure (a : α) : (Pure.pure a : Task σ ε α).Agrees R := fun _ _ h => ⟨rfl, rfl, h⟩

theorem Agrees.bind {m : Task σ ε α} {f : α → Task σ ε β} (hm : m.Agrees R)
    (hf : ∀ a, (f a).Agrees R) : (m >>= f).Agrees R := by
  intro s t hst
  have hfirst := hm s t hst
  rcases hs : m s with ⟨r, spent, s'⟩
  rcases ht : m t with ⟨r', spent', t'⟩
  rw [hs, ht] at hfirst
  obtain ⟨rfl, rfl, hstate⟩ := hfirst
  cases r with
  | error e =>
    rw [bind_of_error hs, bind_of_error ht]
    exact ⟨rfl, rfl, hstate⟩
  | ok a =>
    rw [bind_of_ok hs, bind_of_ok ht]
    have hsecond := hf a s' t' hstate
    exact ⟨hsecond.result, congrArg (spent + ·) hsecond.elapsed, hsecond.state⟩

theorem Agrees.ofAttempt {m : Attempt σ ε α} (hm : m.Agrees R) : (Task.ofAttempt m).Agrees R := by
  intro s t hst
  have hrun := hm none s t hst
  exact ⟨congrArg Ending.toExcept hrun.result, hrun.elapsed, hrun.state⟩

theorem Agrees.mapError {m : Task σ ε α} {f : ε → δ} (hm : m.Agrees R) :
    (Task.mapError f m).Agrees R := by
  intro s t hst
  have hrun := hm s t hst
  exact ⟨congrArg (Except.mapError f) hrun.result, hrun.elapsed, hrun.state⟩

theorem Agrees.noted {m : Task (σ × τ) ε Unit} {note : τ} (hm : m.Agrees (Beside R)) :
    (Task.noted note m).Agrees R := by
  intro s t hst
  have hrun := hm (s, note) (t, note) ⟨hst, rfl⟩
  refine ⟨?_, hrun.elapsed, hrun.state.1⟩
  show (m (s, note)).result.map _ = (m (t, note)).result.map _
  rw [hrun.result, hrun.state.2]

end Task

/-! ## Waits -/

namespace Wait

variable {describe : ε → String} {what name : String} {o appear complete : WaitOptions}

structure Progress.Alike (R : σ → σ → Prop) (p q : Progress σ) : Prop where
  elapsed : p.elapsed = q.elapsed
  attempts : p.attempts = q.attempts
  lastError : p.lastError = q.lastError
  state : R p.state q.state

theorem round_agrees {check : Attempt σ ε (Option α)} (hcheck : check.Agrees R)
    {p q : Progress σ} (h : p.Alike R q) :
    (round describe o check p).1 = (round describe o check q).1 ∧
      (round describe o check p).2.Alike R (round describe o check q).2 := by
  obtain ⟨elapsed, attempts, lastError, s⟩ := p
  obtain ⟨elapsed', attempts', lastError', t⟩ := q
  obtain ⟨rfl, rfl, rfl, hst⟩ := h
  have hrun := hcheck (some (budget o elapsed)) s t hst
  unfold round
  simp only
  generalize check.run (some (budget o elapsed)) s = a at hrun ⊢
  generalize check.run (some (budget o elapsed)) t = b at hrun ⊢
  obtain ⟨r, spent, s'⟩ := a
  obtain ⟨r', spent', t'⟩ := b
  obtain ⟨rfl, rfl, hstate⟩ := hrun
  cases r with
  | done outcome => exact ⟨rfl, rfl, rfl, rfl, hstate⟩
  | failed e => exact ⟨rfl, rfl, rfl, rfl, hstate⟩
  | cutOff _ => exact ⟨rfl, rfl, rfl, rfl, hstate⟩

/-- By induction on the count, which is the same in both runs. -/
theorem loop_agrees {check : Attempt σ ε (Option α)} (hcheck : check.Agrees R) (n : Nat) :
    ∀ {p q : Progress σ}, p.Alike R q →
      (loop describe what o check n p).Alike R (loop describe what o check n q) := by
  induction n with
  | zero =>
    intro p q h
    refine ⟨?_, h.elapsed, h.state⟩
    show Except.error _ = Except.error _
    rw [h.attempts, h.lastError]
  | succ n ih =>
    intro p q h
    have hround : (round describe o check p).1 = (round describe o check q).1 ∧
        (round describe o check p).2.Alike R (round describe o check q).2 := round_agrees hcheck h
    obtain ⟨hfound, hnext⟩ := hround
    unfold loop
    generalize round describe o check p = first at hfound hnext ⊢
    generalize round describe o check q = second at hfound hnext ⊢
    obtain ⟨r, p'⟩ := first
    obtain ⟨r', q'⟩ := second
    obtain rfl : r = r' := hfound
    obtain ⟨helapsed, hattempts, hlastError, hstate⟩ := hnext
    cases r with
    | some a => exact ⟨rfl, helapsed, hstate⟩
    | none =>
      simp only at helapsed hattempts hlastError hstate ⊢
      rw [helapsed, hattempts, hlastError]
      split
      · exact ⟨rfl, rfl, hstate⟩
      · exact ih ⟨rfl, rfl, rfl, hstate⟩

theorem poll_agrees {check : Attempt σ ε (Option α)} (hcheck : check.Agrees R) :
    (poll describe what o check).Agrees R :=
  fun _ _ hst => loop_agrees hcheck (rounds o) ⟨rfl, rfl, rfl, hst⟩

theorem noteFinished_agrees (statuses : List CommitStatus) :
    (noteFinished name statuses : Attempt (σ × Option StatusState) ε _).Agrees (Beside R) := by
  unfold noteFinished
  split
  · split
    · exact Attempt.agrees_pure none
    · refine Attempt.Agrees.bind ?_ fun _ => Attempt.agrees_pure (some ())
      exact Attempt.agrees_step fun _ _ h => ⟨rfl, rfl, h.1, rfl⟩
  · exact Attempt.agrees_pure none

theorem forStatus_agrees {report : Attempt σ ε (List CommitStatus)} (hreport : report.Agrees R) :
    (forStatus describe name appear complete report).Agrees R := by
  have happeared : (appeared name report).Agrees R :=
    hreport.bind fun _ => Attempt.agrees_pure _
  have hfinished : (finished name report).Agrees (Beside R) :=
    hreport.onFirst.bind noteFinished_agrees
  exact (poll_agrees happeared).bind fun _ => (poll_agrees hfinished).noted.bind fun _ =>
    Task.agrees_pure _

end Wait
end ForgeChores
