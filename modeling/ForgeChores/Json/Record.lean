import ForgeChores.Json.Written

/-!
# ForgeChores.Json.Record

Reading records of known fields out of written JSON.

A record is an object or an array. In an object each field is looked up by name: unknown members
are skipped whatever they hold, a known name may stand only once, an absent or null optional field
is absent, and a field with a default may be absent but not null. In an array the fields stand in
the order in which they are asked for, all of them and no more; only a field with a default may be
missing at the end.
-/

namespace ForgeChores
namespace Json

/-- Reads a value of one kind. -/
abbrev Decoder (α : Type) := Written → Option α

namespace Decoder

def text : Decoder String
  | .string s => s
  | _ => none

def natural : Decoder Nat
  | .number l => l.natural?
  | _ => none

def boolean : Decoder Bool
  | .bool b => some b
  | _ => none

/-- Anything at all, as a value. -/
def any (depth : Nat) : Decoder Json := fun w => w.value? depth

def list {α : Type} (item : Decoder α) : Decoder (List α)
  | .array items => items.mapM item
  | _ => none

/-- Null is absence. -/
def optional {α : Type} (d : Decoder α) : Decoder (Option α)
  | .null => some none
  | w => (d w).map some

end Decoder

/-- What a record's fields are taken from. -/
inductive Source where
  | named (fields : List (Option String × Written))
  | positional (items : List Written)

/-- Takes fields one after the other. -/
abbrev Fields (α : Type) := StateT Source Option α

namespace Fields

/-- The written value of the next field, if it is there. -/
def take (name : String) : Fields (Option Written) := fun source =>
  match source with
  | .named fields =>
    match fields.filter (fun f => f.1 == some name) with
    | [] => some (none, source)
    | [(_, w)] => some (some w, source)
    | _ => none
  | .positional [] => some (none, source)
  | .positional (w :: rest) => some (some w, .positional rest)

def required {α : Type} (name : String) (d : Decoder α) : Fields α := do
  match ← take name with
  | some w => StateT.lift (d w)
  | none => failure

/-- An array has to spell out an optional field, an object need not. -/
def optional {α : Type} (name : String) (d : Decoder α) : Fields (Option α) := fun source => do
  let (found, rest) ← take name source
  match found, source with
  | some w, _ => some (← Decoder.optional d w, rest)
  | none, .named _ => some (none, rest)
  | none, .positional _ => none

def defaulted {α : Type} (name : String) (default : α) (d : Decoder α) : Fields α := do
  match ← take name with
  | some w => StateT.lift (d w)
  | none => pure default

end Fields

/-- A record with the given fields. A member name that spells nothing spoils the object. -/
def record {α : Type} (fields : Fields α) : Decoder α
  | .object found =>
    if found.all (fun m => m.1.isSome) then
      (fields (.named found)).map (·.1)
    else none
  | .array items =>
    match fields (.positional items) with
    | some (a, .positional []) => some a
    | _ => none
  | _ => none

/-- Reads a whole text. -/
def Decoder.read {α : Type} (d : Decoder α) (text : String) : Option α := do
  let w ← Written.parse? text
  d w

end Json
end ForgeChores
