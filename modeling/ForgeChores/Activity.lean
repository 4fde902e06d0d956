import ForgeChores.Duration

/-!
# ForgeChores.Activity

What takes time. An activity runs over a surrounding state `σ`, takes a span of nanoseconds and ends
with a value or a failure `ε`.

* An `Attempt` may be given a limit and is cut off when it would run past it. Time then stands
  exactly at the limit; what the attempt did to the state until then stays done. Both are part of
  the type: every attempt keeps to its limit, and only a limited one can be cut off.
* A `Task` has no limit. It may pause, and it may run attempts under limits of its own.

`Attempt.step` is the only attempt that takes time by itself; all others are put together from it.
-/

namespace ForgeChores

/-- What an activity leaves behind. -/
structure Timed (σ ρ : Type) where
  result : ρ
  elapsed : Nat
  state : σ

/-- How an attempt ended under a limit. -/
inductive Ending (ε α : Type) (limit : Option Nat) where
  | done (a : α)
  | failed (e : ε)
  | cutOff (limited : limit.isSome = true)

namespace Ending

variable {ε α : Type} {limit : Option Nat}

def isCutOff : Ending ε α limit → Bool
  | .cutOff _ => true
  | _ => false

/-- The ending seen from before a span of the limit had passed. -/
def widen {spent : Nat} : Ending ε α (limit.map (· - spent)) → Ending ε α limit
  | .done a => .done a
  | .failed e => .failed e
  | .cutOff h => .cutOff (by simpa using h)

@[simp] theorem isCutOff_widen {spent : Nat} (e : Ending ε α (limit.map (· - spent))) :
    e.widen.isCutOff = e.isCutOff := by
  cases e <;> rfl

/-- Without a limit there are two endings. -/
def toExcept : Ending ε α none → Except ε α
  | .done a => .ok a
  | .failed e => .error e

end Ending

/-- No time past the limit, and all of it when cut off. -/
def Timed.Keeps {σ ε α : Type} {limit : Option Nat} (t : Timed σ (Ending ε α limit)) : Prop :=
  ∀ b, limit = some b → t.elapsed ≤ b ∧ (t.result.isCutOff = true → t.elapsed = b)

/-- An activity that a limit may cut off. -/
structure Attempt (σ ε α : Type) where
  run : (limit : Option Nat) → σ → Timed σ (Ending ε α limit)
  keeps : ∀ limit s, (run limit s).Keeps

/-- An activity that runs to its end. -/
def Task (σ ε α : Type) := σ → Timed σ (Except ε α)

namespace Attempt

variable {σ τ ε α β : Type}

/-- Takes no time. -/
def pure (a : α) : Attempt σ ε α where
  run _ s := ⟨.done a, 0, s⟩
  keeps := by intro limit s b _; simp [Ending.isCutOff]

def fail (e : ε) : Attempt σ ε α where
  run _ s := ⟨.failed e, 0, s⟩
  keeps := by intro limit s b _; simp [Ending.isCutOff]

def ofExcept : Except ε α → Attempt σ ε α
  | .ok a => Attempt.pure a
  | .error e => Attempt.fail e

/-- The ending and the time of something that takes `d` and then answers `r`. -/
def stepEnding (d : Nat) (r : Except ε α) (s : σ) :
    (limit : Option Nat) → Timed σ (Ending ε α limit)
  | none =>
    match r with
    | .ok a => ⟨.done a, d, s⟩
    | .error e => ⟨.failed e, d, s⟩
  | some b =>
    if d ≤ b then
      match r with
      | .ok a => ⟨.done a, d, s⟩
      | .error e => ⟨.failed e, d, s⟩
    else ⟨.cutOff rfl, b, s⟩

/-- One thing that takes time. The state changes at once; the answer comes when the time has
passed, unless the limit comes first. -/
def step (f : σ → Nat × Except ε α × σ) : Attempt σ ε α where
  run limit s := stepEnding (f s).1 (f s).2.1 (f s).2.2 limit
  keeps := by
    intro limit s b hb
    subst hb
    unfold stepEnding
    dsimp only
    split
    · split <;> simp_all [Ending.isCutOff]
    · simp

/-- An attempt that is chosen by looking at the state. -/
def fromState (f : σ → Attempt σ ε α) : Attempt σ ε α where
  run limit s := (f s).run limit s
  keeps := by intro limit s; exact (f s).keeps limit s

/-- What the second activity does after the first has ended. -/
def andThen {limit : Option Nat} (f : α → Attempt σ ε β) :
    Timed σ (Ending ε α limit) → Timed σ (Ending ε β limit)
  | ⟨.done a, spent, s⟩ =>
    let r := (f a).run (limit.map (· - spent)) s
    ⟨r.result.widen, spent + r.elapsed, r.state⟩
  | ⟨.failed e, spent, s⟩ => ⟨.failed e, spent, s⟩
  | ⟨.cutOff h, spent, s⟩ => ⟨.cutOff h, spent, s⟩

/-- One activity after the other: the second has what the first left of the limit. -/
def bind (m : Attempt σ ε α) (f : α → Attempt σ ε β) : Attempt σ ε β where
  run limit s := andThen f (m.run limit s)
  keeps := by
    intro limit s b hb
    have hm := m.keeps limit s b hb
    rcases h : m.run limit s with ⟨_ | _ | _, spent, s'⟩
    · rename_i a
      rw [h] at hm
      have hf := (f a).keeps (limit.map (· - spent)) s' (b - spent) (by simp [hb])
      simp only [andThen, Ending.isCutOff_widen]
      refine ⟨by have := hm.1; have := hf.1; simp only at *; omega, fun hc => ?_⟩
      have := hf.2 hc
      have := hm.1
      simp only at *
      omega
    · rw [h] at hm; exact ⟨hm.1, by simp [andThen, Ending.isCutOff]⟩
    · rw [h] at hm; exact ⟨hm.1, fun _ => hm.2 rfl⟩

instance : Monad (Attempt σ ε) where
  pure := Attempt.pure
  bind := Attempt.bind

/-- A failure as a value. -/
def catchEnding {limit : Option Nat} :
    Timed σ (Ending ε α limit) → Timed σ (Ending ε (Except ε α) limit)
  | ⟨.done a, spent, s⟩ => ⟨.done (.ok a), spent, s⟩
  | ⟨.failed e, spent, s⟩ => ⟨.done (.error e), spent, s⟩
  | ⟨.cutOff h, spent, s⟩ => ⟨.cutOff h, spent, s⟩

/-- Turns a failure into a value. Being cut off is no failure. -/
def caught (m : Attempt σ ε α) : Attempt σ ε (Except ε α) where
  run limit s := catchEnding (m.run limit s)
  keeps := by
    intro limit s b hb
    have hm := m.keeps limit s b hb
    rcases h : m.run limit s with ⟨_ | _ | _, spent, s'⟩ <;> rw [h] at hm
    · exact ⟨hm.1, by simp [catchEnding, Ending.isCutOff]⟩
    · exact ⟨hm.1, by simp [catchEnding, Ending.isCutOff]⟩
    · exact ⟨hm.1, fun _ => hm.2 rfl⟩

/-- Runs on the first part of a state. -/
def onFirst (m : Attempt σ ε α) : Attempt (σ × τ) ε α where
  run limit s :=
    let r := m.run limit s.1
    ⟨r.result, r.elapsed, (r.state, s.2)⟩
  keeps := by intro limit s; exact m.keeps limit s.1

/-- Puts `t` in the second part of a state. Takes no time. -/
def note (t : τ) : Attempt (σ × τ) ε Unit := .step fun s => (0, .ok (), (s.1, t))

end Attempt

namespace Task

variable {σ τ ε δ α β : Type}

/-- Takes no time. -/
def pure (a : α) : Task σ ε α := fun s => ⟨.ok a, 0, s⟩

def fail (e : ε) : Task σ ε α := fun s => ⟨.error e, 0, s⟩

def ofExcept (r : Except ε α) : Task σ ε α := fun s => ⟨r, 0, s⟩

def bind (m : Task σ ε α) (f : α → Task σ ε β) : Task σ ε β := fun s =>
  match m s with
  | ⟨.ok a, spent, s⟩ =>
    let r := f a s
    ⟨r.result, spent + r.elapsed, r.state⟩
  | ⟨.error e, spent, s⟩ => ⟨.error e, spent, s⟩

instance : Monad (Task σ ε) where
  pure := Task.pure
  bind := Task.bind

/-- An attempt without a limit. -/
def ofAttempt (m : Attempt σ ε α) : Task σ ε α := fun s =>
  let r := m.run none s
  ⟨r.result.toExcept, r.elapsed, r.state⟩

instance : MonadLift (Attempt σ ε) (Task σ ε) where
  monadLift := Task.ofAttempt

/-- Turns a failure into a value. -/
def caught (m : Task σ ε α) : Task σ ε (Except ε α) := fun s =>
  let r := m s
  ⟨.ok r.result, r.elapsed, r.state⟩

def mapError (f : ε → δ) (m : Task σ ε α) : Task σ δ α := fun s =>
  let r := m s
  ⟨r.result.mapError f, r.elapsed, r.state⟩

/-- Lets time pass. -/
def pause (d : Nat) : Task σ ε Unit := fun s => ⟨.ok (), Duration.effective d, s⟩

/-- Runs on the first part of a state. -/
def onFirst (m : Task σ ε α) : Task (σ × τ) ε α := fun (s, t) =>
  let r := m s
  ⟨r.result, r.elapsed, (r.state, t)⟩

/-- Runs on the second part of a state. -/
def onSecond (m : Task τ ε α) : Task (σ × τ) ε α := fun (s, t) =>
  let r := m t
  ⟨r.result, r.elapsed, (s, r.state)⟩

/-- Runs beside something to note, which begins as `t`, and gives what is noted in the end. -/
def noted (t : τ) (m : Task (σ × τ) ε Unit) : Task σ ε τ := fun s =>
  let r := m (s, t)
  ⟨r.result.map fun _ => r.state.2, r.elapsed, r.state.1⟩

end Task
end ForgeChores
