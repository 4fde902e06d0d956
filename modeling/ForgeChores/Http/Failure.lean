import ForgeChores.ForgeError
import ForgeChores.Http.Status
import ForgeChores.Json.Printer
import ForgeChores.Json.Written

/-!
# ForgeChores.Http.Failure

What an answer other than success says, and what kind of failure that is.

The message is taken from a JSON body: a text `message`, else any other `message` as JSON, else a
text `error`. Failing that it is the beginning of the body, and for a blank body the name of the
status. The kind follows from the status; where the status says little, from words in the message.
-/

namespace ForgeChores
namespace Failure

/-- The message in a JSON body. A text `message` counts even if it is empty. -/
def ofJson? (body : Json) : Option String :=
  match body.get? "message", body.get? "error" with
  | some (.string m), _ => some m
  | some .null, some (.string e) => some e
  | some .null, _ => none
  | some other, _ => some other.text
  | none, some (.string e) => some e
  | none, _ => none

/-- How much of a body is shown. -/
def shownLength : Nat := 200

/-- The message of an answer; never empty. -/
def message (status : Nat) (body : String) : String :=
  let fromJson := ((Json.parse? body).bind ofJson?).getD ""
  if fromJson ≠ "" then fromJson
  else
    let shown := (Text.trim body).toList.take shownLength
    if shown.isEmpty then (Http.reason? status).getD "unknown error" else String.ofList shown

/-- The kind of an answer other than success. -/
def classify (context : String) (status : Nat) (message : String) : ForgeError :=
  let words := Text.lower message
  if status = 404 then .notFound context message
  else if status = 409 then .conflict context message
  else if status = 408 ∨ status = 429 then .transient context message
  else if 500 ≤ status ∧ status ≤ 599 then .transient context message
  else if Text.contains words "already exists" || Text.contains words "has already been taken" then
    .conflict context message
  else if Text.contains words "does not exist" then .notFound context message
  else .provider context (some status) message

end Failure
end ForgeChores
