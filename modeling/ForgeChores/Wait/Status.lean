import ForgeChores.CommitStatus
import ForgeChores.Wait

/-!
# ForgeChores.Wait.Status

Waiting for a CI status: first until one whose name contains the given text is reported, then
until the first such status has finished. Both phases look the status up anew in every report.
-/

namespace ForgeChores
namespace Wait

variable {σ ε : Type}

/-- Phase one: has a matching status appeared? -/
def appeared (name : String) (report : Attempt σ ε (List CommitStatus)) :
    Attempt σ ε (Option Unit) := do
  let statuses ← report
  return (CommitStatus.find? name statuses).map fun _ => ()

/-- Has the matching status finished? Its state is noted then. -/
def noteFinished (name : String) (statuses : List CommitStatus) :
    Attempt (σ × Option StatusState) ε (Option Unit) :=
  match CommitStatus.find? name statuses with
  | some s =>
    if s.state.isPending then return none
    else do
      Attempt.note (some s.state)
      return some ()
  | none => return none

/-- Phase two: has the matching status finished, and in which state? -/
def finished (name : String) (report : Attempt σ ε (List CommitStatus)) :
    Attempt (σ × Option StatusState) ε (Option Unit) := do
  let statuses ← report.onFirst
  noteFinished name statuses

def toAppear (name : String) : String := "status '" ++ name ++ "' to appear"

def toComplete (name : String) : String := "status '" ++ name ++ "' to complete"

/-- The final state of the status named `name`; a state that was never noted would be unknown. -/
def forStatus (describe : ε → String) (name : String) (appear complete : WaitOptions)
    (report : Attempt σ ε (List CommitStatus)) : Task σ WaitTimeout StatusState := do
  poll describe (toAppear name) appear (appeared name report)
  let final ← Task.noted none (poll describe (toComplete name) complete (finished name report))
  return final.getD (.other "unknown")

end Wait
end ForgeChores
