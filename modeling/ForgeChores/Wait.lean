import ForgeChores.Activity

/-!
# ForgeChores.Wait

Bounded polling: check at once, then once per interval, until a check has an outcome or the
deadline has come. A check is an attempt at an `Option`: an outcome ends the wait, `none` means
"not yet".

* A check may run for what remains until the deadline, but always for one interval at least; past
  that it is cut off. A failed check and one that is cut off count as "not yet".
* The deadline is tested after each check, so a check that began before it may still succeed.
* Pauses never run past the deadline.

So a wait is over one interval after its deadline at the latest. `Wait.rounds` is how many checks
fit; the loop counts down from it.
-/

namespace ForgeChores

/-- How often to check, and for how long. -/
structure WaitOptions where
  interval : Nat
  timeout : Nat
deriving DecidableEq

namespace WaitOptions

def seconds (interval timeout : Nat) : WaitOptions :=
  ⟨Duration.seconds interval, Duration.seconds timeout⟩

def branch : WaitOptions := seconds 2 120
def status : WaitOptions := seconds 2 600
def fork : WaitOptions := seconds 10 300
def forkReady : WaitOptions := seconds 10 600
def delete : WaitOptions := seconds 10 300

/-- The span from the start of the wait to its deadline. -/
def deadline (o : WaitOptions) : Nat := Duration.effective o.timeout

end WaitOptions

/-- The wait options of every kind of wait. -/
structure Timeouts where
  branch : WaitOptions := .branch
  status : WaitOptions := .status
  fork : WaitOptions := .fork
  forkReady : WaitOptions := .forkReady
  delete : WaitOptions := .delete
deriving DecidableEq

namespace Timeouts

/-- The same options for every wait. -/
def uniform (o : WaitOptions) : Timeouts := ⟨o, o, o, o, o⟩

end Timeouts

/-- A wait that was given up. -/
structure WaitTimeout where
  what : String
  timeout : Nat
  /-- How many checks were begun, as far as 32 bits count them. -/
  attempts : UInt32
  lastError : Option String
deriving DecidableEq

namespace WaitTimeout

def message (t : WaitTimeout) : String :=
  let lastError :=
    match t.lastError with
    | some e => "; last error: " ++ e
    | none => ""
  "timed out after " ++ Duration.text t.timeout ++ " waiting for " ++ t.what ++ " (" ++
    toString t.attempts ++ " attempts)" ++ lastError

end WaitTimeout

namespace Wait

variable {σ ε α : Type}

/-- How long a check may run that starts `elapsed` after the wait did. -/
def budget (o : WaitOptions) (elapsed : Nat) : Nat :=
  max (o.deadline - elapsed) o.interval

/-- How many checks fit before the deadline. Without an interval nothing bounds them but the
counter of attempts, which has 32 bits. -/
def rounds (o : WaitOptions) : Nat :=
  if o.interval = 0 then Nat.pow 2 32 - 1
  else (o.deadline + o.interval - 1) / o.interval + 1

/-- What a wait has seen so far. -/
structure Progress (σ : Type) where
  elapsed : Nat
  attempts : UInt32
  lastError : Option String
  state : σ

/-- One check, begun under its budget. -/
def round (describe : ε → String) (o : WaitOptions) (check : Attempt σ ε (Option α))
    (p : Progress σ) : Option α × Progress σ :=
  let budget := budget o p.elapsed
  match check.run (some budget) p.state with
  | ⟨.done outcome, spent, s⟩ => (outcome, ⟨p.elapsed + spent, p.attempts + 1, p.lastError, s⟩)
  | ⟨.failed e, spent, s⟩ => (none, ⟨p.elapsed + spent, p.attempts + 1, some (describe e), s⟩)
  | ⟨.cutOff _, spent, s⟩ =>
    (none, ⟨p.elapsed + spent, p.attempts + 1,
      some ("check did not finish within " ++ Duration.text budget), s⟩)

/-- Checks and pauses until an outcome or the deadline; at most `rounds` checks. -/
def loop (describe : ε → String) (what : String) (o : WaitOptions)
    (check : Attempt σ ε (Option α)) : (rounds : Nat) → Progress σ → Timed σ (Except WaitTimeout α)
  | 0, p => ⟨.error ⟨what, o.timeout, p.attempts, p.lastError⟩, p.elapsed, p.state⟩
  | rounds + 1, p =>
    match round describe o check p with
    | (some a, p) => ⟨.ok a, p.elapsed, p.state⟩
    | (none, p) =>
      if o.deadline ≤ p.elapsed then
        ⟨.error ⟨what, o.timeout, p.attempts, p.lastError⟩, p.elapsed, p.state⟩
      else
        loop describe what o check rounds
          { p with elapsed := p.elapsed + min o.interval (o.deadline - p.elapsed) }

/-- Polls `check` until it has an outcome. `describe` gives the text of a failed check. -/
def poll (describe : ε → String) (what : String) (o : WaitOptions)
    (check : Attempt σ ε (Option α)) : Task σ WaitTimeout α := fun s =>
  loop describe what o check (rounds o) ⟨0, 0, none, s⟩

end Wait
end ForgeChores
