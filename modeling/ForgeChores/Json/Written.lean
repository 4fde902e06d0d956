import ForgeChores.Json.Lexer

/-!
# ForgeChores.Json.Written

A JSON text as it is written, and the value it stands for.

`Written` keeps what a value forgets: number literals, repeated names, the order of members and
strings that spell nothing. `Written.parse?` reads a whole text at any depth. What is kept as a
value has to be one: `Written.value?` refuses strings with a lone surrogate, numbers beyond the
largest double and nesting deeper than `maxDepth`.
-/

namespace ForgeChores
namespace Json

inductive Written where
  | null
  | bool (b : Bool)
  | number (l : Literal)
  | string (s : Option String)
  | array (items : List Written)
  | object (fields : List (Option String × Written))

namespace Written

/-! ## Reading tokens -/

/-- An array or object whose end has not been read; its parts are kept backwards. -/
inductive Frame where
  | array (items : List Written)
  | object (fields : List (Option String × Written)) (name : Option String)

/-- What the next token may be. -/
inductive Expect where
  | value
  | valueOrEnd
  | name
  | nameOrEnd
  | colon
  | commaOrEnd
  | nothing

/-- The open arrays and objects, innermost first; the whole value once it is complete. -/
structure Progress where
  expect : Expect
  frames : List Frame
  whole : Option Written

/-- A complete value goes into the innermost open frame. -/
def Progress.complete (frames : List Frame) (v : Written) : Progress :=
  match frames with
  | [] => ⟨.nothing, [], some v⟩
  | .array items :: outer => ⟨.commaOrEnd, .array (v :: items) :: outer, none⟩
  | .object fields name :: outer => ⟨.commaOrEnd, .object ((name, v) :: fields) none :: outer, none⟩

/-- A token where a value may begin. -/
def Progress.begin? (frames : List Frame) : Token → Option Progress
  | .null => some (complete frames .null)
  | .bool b => some (complete frames (.bool b))
  | .number l => some (complete frames (.number l))
  | .string s => some (complete frames (.string s))
  | .beginArray => some ⟨.valueOrEnd, .array [] :: frames, none⟩
  | .beginObject => some ⟨.nameOrEnd, .object [] none :: frames, none⟩
  | _ => none

/-- Reads one token. -/
def Progress.step (p : Progress) (t : Token) : Option Progress :=
  match p.expect, p.frames, t with
  | .value, frames, t => begin? frames t
  | .valueOrEnd, .array _ :: outer, .endArray => some (complete outer (.array []))
  | .valueOrEnd, frames, t => begin? frames t
  | .nameOrEnd, .object _ _ :: outer, .endObject => some (complete outer (.object []))
  | .nameOrEnd, .object fields _ :: outer, .string s
  | .name, .object fields _ :: outer, .string s => some ⟨.colon, .object fields s :: outer, none⟩
  | .colon, frames, .colon => some ⟨.value, frames, none⟩
  | .commaOrEnd, .array items :: outer, .comma => some ⟨.value, .array items :: outer, none⟩
  | .commaOrEnd, .array items :: outer, .endArray => some (complete outer (.array items.reverse))
  | .commaOrEnd, .object fields name :: outer, .comma =>
    some ⟨.name, .object fields name :: outer, none⟩
  | .commaOrEnd, .object fields _ :: outer, .endObject =>
    some (complete outer (.object fields.reverse))
  | _, _, _ => none

/-- The whole text as one value. -/
def parse? (text : String) : Option Written := do
  let tokens ← tokens? text.toList
  let p ← tokens.foldlM Progress.step ⟨.value, [], none⟩
  p.whole

/-! ## Values -/

/-- How many arrays and objects may be open at once. -/
def maxDepth : Nat := 127

mutual

/-- The value, if it nests at most `depth` deep. -/
def value? (depth : Nat) : Written → Option Json
  | .null => some .null
  | .bool b => some (.bool b)
  | .number l => l.value?.map .number
  | .string s => s.map .string
  | .array items =>
    match depth with
    | 0 => none
    | depth + 1 => (items? depth items).map .array
  | .object fields =>
    match depth with
    | 0 => none
    | depth + 1 => (fields? depth fields).map Json.object

def items? (depth : Nat) : List Written → Option (List Json)
  | [] => some []
  | v :: rest => do
    let v ← value? depth v
    let rest ← items? depth rest
    some (v :: rest)

def fields? (depth : Nat) : List (Option String × Written) → Option (List (String × Json))
  | [] => some []
  | (name, v) :: rest => do
    let name ← name
    let v ← value? depth v
    let rest ← fields? depth rest
    some ((name, v) :: rest)

end

end Written

/-- The value of a JSON text. -/
def parse? (text : String) : Option Json := do
  let w ← Written.parse? text
  w.value? Written.maxDepth

end Json
end ForgeChores
