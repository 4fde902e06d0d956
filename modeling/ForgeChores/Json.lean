import ForgeChores.Text

/-!
# ForgeChores.Json

JSON values and their compact text.

An object keeps its members sorted by name, each name once; `Json.object` sorts what it is given
and lets the last of several equal names win. Whole numbers have at most 64 bits; every other
number is a double.
-/

namespace ForgeChores

/-- A number: whole if it was written as a whole number that 64 bits hold. -/
inductive Json.Number where
  | whole (n : Int)
  | real (x : Float)

inductive Json where
  | null
  | bool (b : Bool)
  | number (n : Json.Number)
  | string (s : String)
  | array (items : List Json)
  | members (fields : List (String × Json))

namespace Json

/-- Puts a member at its place; an equal name gives way. -/
def insert (name : String) (value : Json) : List (String × Json) → List (String × Json)
  | [] => [(name, value)]
  | (n, v) :: rest =>
    if name = n then (name, value) :: rest
    else if name < n then (name, value) :: (n, v) :: rest
    else (n, v) :: insert name value rest

/-- An object with the given members. -/
def object (fields : List (String × Json)) : Json :=
  .members (fields.foldl (fun acc (name, value) => insert name value acc) [])

def nat (n : Nat) : Json := .number (.whole n)

/-- A member of an object; other values have none. -/
def get? (name : String) : Json → Option Json
  | .members fields => fields.lookup name
  | _ => none

end Json
end ForgeChores
