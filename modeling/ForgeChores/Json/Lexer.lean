import ForgeChores.Json.Number

/-!
# ForgeChores.Json.Lexer

Characters to tokens, one character at a time.

A string may escape half of a surrogate pair. Such a text is well formed and spells no string:
its token carries nothing, and only a value that is skipped may hold it.
-/

namespace ForgeChores
namespace Json

inductive Token where
  | beginArray
  | endArray
  | beginObject
  | endObject
  | colon
  | comma
  | null
  | bool (b : Bool)
  | number (l : Literal)
  | string (s : Option String)

namespace Lexer

/-- The inside of a string read so far, backwards; nothing once a surrogate stood alone. A high
surrogate waits for its partner. -/
structure Quoted where
  chars : Option (List Char)
  high : Option Nat

namespace Quoted

/-- A waiting surrogate that found no partner. -/
def settle (q : Quoted) : Quoted :=
  match q.high with
  | none => q
  | some _ => ⟨none, none⟩

def push (q : Quoted) (c : Char) : Quoted :=
  let q := q.settle
  { q with chars := q.chars.map (c :: ·) }

/-- Adds the code unit of a four-digit escape. -/
def pushUnit (q : Quoted) (unit : Nat) : Quoted :=
  if 0xD800 ≤ unit && unit ≤ 0xDBFF then { q.settle with high := some unit }
  else if 0xDC00 ≤ unit && unit ≤ 0xDFFF then
    match q.high with
    | some high =>
      let c := Char.ofNat (0x10000 + (high - 0xD800) * 0x400 + (unit - 0xDC00))
      { chars := q.chars.map (c :: ·), high := none }
    | none => ⟨none, none⟩
  else q.push (Char.ofNat unit)

def finish (q : Quoted) : Option String :=
  q.settle.chars.map fun cs => String.ofList cs.reverse

end Quoted

/-- Where the next character stands. -/
inductive State where
  | between
  | inNumber (read : List Char)
  | inWord (read : List Char)
  | inString (q : Quoted)
  | afterBackslash (q : Quoted)
  | inEscape (q : Quoted) (digits : Nat) (unit : Nat)

def isSpace (c : Char) : Bool := c == ' ' || c == '\t' || c == '\n' || c == '\r'

def isNumberChar (c : Char) : Bool :=
  Text.isDigit c || c == '-' || c == '+' || c == '.' || c == 'e' || c == 'E'

def isLetter (c : Char) : Bool := 'a' ≤ c && c ≤ 'z'

def word? (w : List Char) : Option Token :=
  if w == ['n', 'u', 'l', 'l'] then some .null
  else if w == ['t', 'r', 'u', 'e'] then some (.bool true)
  else if w == ['f', 'a', 'l', 's', 'e'] then some (.bool false)
  else none

/-- A character outside of any token: the state it leads to and the token it is. -/
def open? (c : Char) : Option (State × List Token) :=
  if isSpace c then some (.between, [])
  else if c == '[' then some (.between, [.beginArray])
  else if c == ']' then some (.between, [.endArray])
  else if c == '\x7b' then some (.between, [.beginObject])
  else if c == '\x7d' then some (.between, [.endObject])
  else if c == ':' then some (.between, [.colon])
  else if c == ',' then some (.between, [.comma])
  else if c == '\x22' then some (.inString ⟨some [], none⟩, [])
  else if c == '-' || Text.isDigit c then some (.inNumber [c], [])
  else if isLetter c then some (.inWord [c], [])
  else none

/-- The character that a short escape stands for. -/
def shortEscape? (c : Char) : Option Char :=
  if c == '\x22' || c == '\\' || c == '/' then some c
  else if c == 'b' then some '\x08'
  else if c == 'f' then some '\x0c'
  else if c == 'n' then some '\n'
  else if c == 'r' then some '\r'
  else if c == 't' then some '\t'
  else none

/-- Closes a number or a word. -/
def close? : State → Option (List Token)
  | .between => some []
  | .inNumber read => (Literal.parse? read.reverse).map fun l => [.number l]
  | .inWord read => (word? read.reverse).map fun t => [t]
  | _ => none

/-- Reads one character. -/
def step (state : State) (c : Char) : Option (State × List Token) :=
  match state with
  | .between => open? c
  | .inNumber read =>
    if isNumberChar c then some (.inNumber (c :: read), [])
    else do
      let tokens ← close? (.inNumber read)
      let (next, more) ← open? c
      some (next, tokens ++ more)
  | .inWord read =>
    if isLetter c then some (.inWord (c :: read), [])
    else do
      let tokens ← close? (.inWord read)
      let (next, more) ← open? c
      some (next, tokens ++ more)
  | .inString q =>
    if c == '\x22' then some (.between, [.string q.finish])
    else if c == '\\' then some (.afterBackslash q, [])
    else if c.toNat < 0x20 then none
    else some (.inString (q.push c), [])
  | .afterBackslash q =>
    if c == 'u' then some (.inEscape q 0 0, [])
    else do
      let c ← shortEscape? c
      some (.inString (q.push c), [])
  | .inEscape q digits unit => do
    let d ← Text.digitValue? c
    if 16 ≤ d then none
    let unit := unit * 16 + d
    if digits == 3 then some (.inString (q.pushUnit unit), [])
    else some (.inEscape q (digits + 1) unit, [])

end Lexer

/-- The tokens of a text. -/
def tokens? (text : List Char) : Option (List Token) := do
  let (state, found) ← text.foldlM
    (fun (state, found) c => do
      let (next, more) ← Lexer.step state c
      some (next, more.reverse ++ found))
    (Lexer.State.between, ([] : List Token))
  let last ← Lexer.close? state
  some (found.reverse ++ last)

end Json
end ForgeChores
