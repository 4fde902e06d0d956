import ForgeChores.Text

/-!
# ForgeChores.CommitStatus

What a CI system reports for a commit, brought to one vocabulary.

Each forge has its own words for the state of a check. `StatusState.parse` maps them to seven
states and keeps a word it does not know, in lower case and trimmed; `StatusState.text` writes a
state with a word that reads back as that state.
-/

namespace ForgeChores

inductive StatusState where
  | pending
  | running
  | success
  | failure
  | error
  | cancelled
  | skipped
  | other (word : String)
deriving DecidableEq

namespace StatusState

def pendingWords : List String :=
  ["pending", "queued", "created", "waiting_for_resource", "preparing", "scheduled", "manual",
    "requested", "waiting"]

def runningWords : List String := ["running", "in_progress"]

def successWords : List String := ["success", "succeeded"]

def failureWords : List String := ["failure", "failed"]

def errorWords : List String := ["error", "warning", "timed_out", "action_required", "stale"]

def cancelledWords : List String := ["canceled", "cancelled"]

def skippedWords : List String := ["skipped", "neutral"]

/-- The state that a trimmed word in lower case stands for. -/
def ofWord (word : String) : StatusState :=
  if word ∈ pendingWords then .pending
  else if word ∈ runningWords then .running
  else if word ∈ successWords then .success
  else if word ∈ failureWords then .failure
  else if word ∈ errorWords then .error
  else if word ∈ cancelledWords then .cancelled
  else if word ∈ skippedWords then .skipped
  else .other word

/-- Reads a forge's word, in any ASCII case and with white space around it. -/
def parse (raw : String) : StatusState := ofWord (Text.lower (Text.trim raw))

def text : StatusState → String
  | .pending => "pending"
  | .running => "running"
  | .success => "success"
  | .failure => "failure"
  | .error => "error"
  | .cancelled => "cancelled"
  | .skipped => "skipped"
  | .other word => word

/-- Whether the check has not finished. -/
def isPending : StatusState → Bool
  | .pending => true
  | .running => true
  | _ => false

end StatusState

/-- One check of a commit. -/
structure CommitStatus where
  name : String
  state : StatusState
deriving DecidableEq

/-- The first status whose name contains `name`. -/
def CommitStatus.find? (name : String) (statuses : List CommitStatus) : Option CommitStatus :=
  statuses.find? fun s => Text.contains s.name name

end ForgeChores
