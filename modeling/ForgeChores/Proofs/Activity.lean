import ForgeChores.Activity

/-!
# ForgeChores.Proofs.Activity

Activities seen from outside: what comes of them, and in which state they leave off.

An attempt without a limit is a task, and `Task.ofAttempt` respects how both are put together
(`ofAttempt_bind` and its like). So a statement about an unlimited run never meets a limit.
A task in steps succeeds when its steps do, each from where the one before left off
(`result_bind_eq_ok`), and takes the time that its steps take (`within_bind`).
-/

namespace ForgeChores

theorem except_bind_eq_ok {ε α β : Type} {r : Except ε α} {f : α → Except ε β} {b : β} :
    (r >>= f) = .ok b ↔ ∃ a, r = .ok a ∧ f a = .ok b := by
  cases r with
  | error e => simp [bind, Except.bind]
  | ok a => simp [bind, Except.bind]

namespace Attempt

variable {σ ε α β : Type}

theorem result_pure {limit : Option Nat} (a : α) (s : σ) :
    ((Pure.pure a : Attempt σ ε α).run limit s).result = .done a := rfl

/-- An attempt in steps is done when its steps are, the second within what is left. -/
theorem result_bind_eq_done {m : Attempt σ ε α} {f : α → Attempt σ ε β} {limit : Option Nat}
    {s : σ} {b : β} :
    ((m >>= f).run limit s).result = .done b ↔
      ∃ a, (m.run limit s).result = .done a ∧
        ((f a).run (limit.map (· - (m.run limit s).elapsed)) (m.run limit s).state).result =
          .done b := by
  show (andThen f (m.run limit s)).result = .done b ↔ _
  rcases hm : m.run limit s with ⟨a | e | hcut, spent, s'⟩
  · simp only [andThen, Ending.done.injEq, exists_eq_left']
    cases ((f a).run (limit.map (· - spent)) s').result <;> simp [Ending.widen]
  · simp [andThen]
  · simp [andThen]

end Attempt

namespace Task

variable {σ ε α β : Type}

/-! ## Steps of a task -/

@[simp] theorem result_pure (a : α) (s : σ) : ((Pure.pure a : Task σ ε α) s).result = .ok a := rfl

theorem bind_of_ok {m : Task σ ε α} {f : α → Task σ ε β} {s s' : σ} {a : α} {spent : Nat}
    (h : m s = ⟨.ok a, spent, s'⟩) :
    (m >>= f) s = ⟨(f a s').result, spent + (f a s').elapsed, (f a s').state⟩ := by
  show Task.bind m f s = _
  unfold Task.bind
  rw [h]

theorem bind_of_error {m : Task σ ε α} {f : α → Task σ ε β} {s s' : σ} {e : ε} {spent : Nat}
    (h : m s = ⟨.error e, spent, s'⟩) : (m >>= f) s = ⟨.error e, spent, s'⟩ := by
  show Task.bind m f s = _
  unfold Task.bind
  rw [h]

theorem bind_assoc {γ : Type} (m : Task σ ε α) (f : α → Task σ ε β) (g : β → Task σ ε γ) :
    (m >>= f >>= g) = m >>= fun a => f a >>= g := by
  funext s
  rcases hm : m s with ⟨e | a, spent, s'⟩
  · rw [bind_of_error hm, bind_of_error (bind_of_error hm)]
  · rw [bind_of_ok hm]
    rcases hf : f a s' with ⟨e | b, spent', s''⟩
    · have hmf : (m >>= f) s = ⟨.error e, spent + spent', s''⟩ := by
        rw [bind_of_ok hm, hf]
      rw [bind_of_error hmf, bind_of_error hf]
    · have hmf : (m >>= f) s = ⟨.ok b, spent + spent', s''⟩ := by
        rw [bind_of_ok hm, hf]
      rw [bind_of_ok hmf, bind_of_ok hf, Nat.add_assoc]

theorem ofExcept_ok_bind (a : α) (f : α → Task σ ε β) : (ofExcept (.ok a) >>= f) = f a := by
  funext s
  have h : ofExcept (.ok a) s = ⟨(.ok a : Except ε α), 0, s⟩ := rfl
  rw [bind_of_ok h, Nat.zero_add]

theorem ofExcept_error_bind (e : ε) (f : α → Task σ ε β) :
    (ofExcept (.error e) >>= f) = fail e := rfl

theorem fail_bind (e : ε) (f : α → Task σ ε β) : (fail e >>= f) = fail e := rfl

/-- What follows a caught task sees its failure as a value. -/
theorem caught_bind (m : Task σ ε α) (f : Except ε α → Task σ ε β) (s : σ) :
    (m.caught >>= f) s = ⟨(f (m s).result (m s).state).result,
      (m s).elapsed + (f (m s).result (m s).state).elapsed,
      (f (m s).result (m s).state).state⟩ := rfl

theorem bind_pure (m : Task σ ε α) (g : α → β) (s : σ) :
    (m >>= fun a => Pure.pure (g a)) s = ⟨(m s).result.map g, (m s).elapsed, (m s).state⟩ := by
  rcases hm : m s with ⟨e | a, spent, s'⟩
  · rw [bind_of_error hm]
    rfl
  · rw [bind_of_ok hm]
    rfl

/-- A task in steps succeeds when its steps do. -/
theorem result_bind_eq_ok {m : Task σ ε α} {f : α → Task σ ε β} {s : σ} {b : β} :
    ((m >>= f) s).result = .ok b ↔
      ∃ a, (m s).result = .ok a ∧ (f a (m s).state).result = .ok b := by
  rcases hm : m s with ⟨e | a, spent, s'⟩
  · rw [bind_of_error hm]
    simp
  · rw [bind_of_ok hm]
    simp

/-- A task in steps fails when one of its steps does. -/
theorem result_bind_eq_error {m : Task σ ε α} {f : α → Task σ ε β} {s : σ} {e : ε} :
    ((m >>= f) s).result = .error e ↔
      (m s).result = .error e ∨
        ∃ a, (m s).result = .ok a ∧ (f a (m s).state).result = .error e := by
  rcases hm : m s with ⟨e' | a, spent, s'⟩
  · rw [bind_of_error hm]
    simp
  · rw [bind_of_ok hm]
    simp

theorem result_mapError_eq_ok {δ : Type} {f : ε → δ} {m : Task σ ε α} {s : σ} {a : α} :
    ((mapError f m) s).result = .ok a ↔ (m s).result = .ok a := by
  simp only [mapError]
  cases (m s).result with
  | error e =>
    show (Except.error (f e) : Except δ α) = .ok a ↔ _
    simp
  | ok b =>
    show (Except.ok b : Except δ α) = .ok a ↔ _
    simp

/-! ## How long a task takes -/

/-- The task is over after `d` at the latest, from whatever state it starts. -/
def Within (d : Nat) (m : Task σ ε α) : Prop := ∀ s, (m s).elapsed ≤ d

theorem Within.mono {m : Task σ ε α} {d d' : Nat} (h : m.Within d) (hle : d ≤ d') : m.Within d' :=
  fun s => Nat.le_trans (h s) hle

theorem within_pure (a : α) (d : Nat) : (Pure.pure a : Task σ ε α).Within d := fun _ => Nat.zero_le d

theorem within_fail (e : ε) (d : Nat) : (fail e : Task σ ε α).Within d := fun _ => Nat.zero_le d

theorem within_ofExcept (r : Except ε α) (d : Nat) : (ofExcept r : Task σ ε α).Within d :=
  fun _ => Nat.zero_le d

theorem within_bind {m : Task σ ε α} {f : α → Task σ ε β} {d d' : Nat} (hm : m.Within d)
    (hf : ∀ a, (f a).Within d') : (m >>= f).Within (d + d') := by
  intro s
  have hfirst := hm s
  rcases h : m s with ⟨e | a, spent, s'⟩
  · rw [h] at hfirst
    rw [bind_of_error h]
    exact Nat.le_add_right_of_le hfirst
  · rw [h] at hfirst
    rw [bind_of_ok h]
    exact Nat.add_le_add hfirst (hf a s')

/-- What follows at once takes no time. -/
theorem within_bind_instant {m : Task σ ε α} {f : α → Task σ ε β} {d : Nat} (hm : m.Within d)
    (hf : ∀ a, (f a).Within 0) : (m >>= f).Within d := within_bind hm hf

theorem within_instant_bind {m : Task σ ε α} {f : α → Task σ ε β} {d : Nat} (hm : m.Within 0)
    (hf : ∀ a, (f a).Within d) : (m >>= f).Within d :=
  (within_bind hm hf).mono (Nat.le_of_eq (Nat.zero_add d))

theorem Within.mapError {δ : Type} {f : ε → δ} {m : Task σ ε α} {d : Nat} (h : m.Within d) :
    (Task.mapError f m).Within d := h

theorem Within.caught {m : Task σ ε α} {d : Nat} (h : m.Within d) : m.caught.Within d := h

theorem Within.noted {τ : Type} {t : τ} {m : Task (σ × τ) ε Unit} {d : Nat} (h : m.Within d) :
    (Task.noted t m).Within d := fun s => h (s, t)

/-! ## Attempts without a limit -/

theorem liftM_eq_ofAttempt (m : Attempt σ ε α) : (liftM m : Task σ ε α) = ofAttempt m := rfl

@[simp] theorem ofAttempt_pure (a : α) :
    ofAttempt (Pure.pure a : Attempt σ ε α) = (Pure.pure a : Task σ ε α) := rfl

theorem ofAttempt_fail (e : ε) :
    ofAttempt (Attempt.fail e : Attempt σ ε α) = Task.fail e := rfl

@[simp] theorem ofAttempt_ofExcept (r : Except ε α) :
    ofAttempt (Attempt.ofExcept r : Attempt σ ε α) = Task.ofExcept r := by
  cases r <;> rfl

theorem ofAttempt_step (f : σ → Nat × Except ε α × σ) (s : σ) :
    ofAttempt (Attempt.step f) s = ⟨(f s).2.1, (f s).1, (f s).2.2⟩ := by
  simp only [ofAttempt, Attempt.step, Attempt.stepEnding]
  cases (f s).2.1 <;> rfl

theorem ofAttempt_bind (m : Attempt σ ε α) (f : α → Attempt σ ε β) :
    ofAttempt (m >>= f) = ofAttempt m >>= fun a => ofAttempt (f a) := by
  funext s
  show ofAttempt (Attempt.bind m f) s = Task.bind (ofAttempt m) (fun a => ofAttempt (f a)) s
  simp only [ofAttempt, Attempt.bind, Task.bind]
  rcases hm : m.run none s with ⟨_ | _ | hlimit, spent, s'⟩
  · rename_i a
    simp only [Attempt.andThen, Ending.toExcept]
    rcases hf : (f a).run none s' with ⟨_ | _ | hlimit, spent', s''⟩
    · simp only [Option.map_none, hf, Ending.widen]
    · simp only [Option.map_none, hf, Ending.widen]
    · cases hlimit
  · rfl
  · cases hlimit

theorem ofAttempt_caught (m : Attempt σ ε α) :
    ofAttempt m.caught = (ofAttempt m).caught := by
  funext s
  simp only [ofAttempt, Attempt.caught, caught]
  rcases hm : m.run none s with ⟨_ | _ | hlimit, spent, s'⟩
  · rfl
  · rfl
  · cases hlimit

theorem Within.ofAttempt_caught {m : Attempt σ ε α} {d : Nat} (h : (ofAttempt m).Within d) :
    (ofAttempt m.caught).Within d := by
  rw [Task.ofAttempt_caught]
  exact h.caught

end Task
end ForgeChores
