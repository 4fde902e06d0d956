import ForgeChores.Text

/-!
# ForgeChores.Text.Utf8

Text as bytes.

* `encode` gives the bytes of a text, `decode` the text of bytes that are well formed, or the
  place of the first fault.
* `decodeLossy` reads any bytes: each maximal ill-formed part becomes one U+FFFD.

A fault is described by the length of the well-formed text before it and by how many bytes could
not be read. Bytes that end inside a character that was well formed so far are *unfinished*.
-/

namespace ForgeChores
namespace Text
namespace Utf8

def encode (s : String) : Bytes := s.toByteArray.data.toList

/-! ## Reading byte by byte -/

/-- A part of a byte sequence: one character, or bytes that are none. -/
inductive Piece where
  | char (c : Char)
  | broken (length : Nat)
  | unfinished (length : Nat)

/-- A character whose first bytes were read: the range the next byte has to lie in, the value so
far, the bytes read and the bytes still to come. -/
structure Pending where
  low : Nat
  high : Nat
  value : Nat
  seen : Nat
  missing : Nat

/-- Begins a character. The second byte's range excludes overlong forms, surrogates and values
past U+10FFFF. -/
def start (byte : UInt8) : Option Pending × List Piece :=
  let b := byte.toNat
  if b < 0x80 then (none, [.char (Char.ofNat b)])
  else if 0xC2 ≤ b && b ≤ 0xDF then (some ⟨0x80, 0xBF, b - 0xC0, 1, 1⟩, [])
  else if b == 0xE0 then (some ⟨0xA0, 0xBF, 0, 1, 2⟩, [])
  else if b == 0xED then (some ⟨0x80, 0x9F, 0xD, 1, 2⟩, [])
  else if 0xE1 ≤ b && b ≤ 0xEF then (some ⟨0x80, 0xBF, b - 0xE0, 1, 2⟩, [])
  else if b == 0xF0 then (some ⟨0x90, 0xBF, 0, 1, 3⟩, [])
  else if 0xF1 ≤ b && b ≤ 0xF3 then (some ⟨0x80, 0xBF, b - 0xF0, 1, 3⟩, [])
  else if b == 0xF4 then (some ⟨0x80, 0x8F, 4, 1, 3⟩, [])
  else (none, [.broken 1])

/-- Reads one byte. A byte that cannot continue the pending character begins the next one. -/
def feed (state : Option Pending) (byte : UInt8) : Option Pending × List Piece :=
  match state with
  | none => start byte
  | some p =>
    let b := byte.toNat
    if p.low ≤ b && b ≤ p.high then
      let value := p.value * 64 + (b - 0x80)
      if p.missing == 1 then (none, [.char (Char.ofNat value)])
      else (some ⟨0x80, 0xBF, value, p.seen + 1, p.missing - 1⟩, [])
    else
      let (next, found) := start byte
      (next, .broken p.seen :: found)

/-- The parts of a byte sequence, in order. -/
def scan (bytes : Bytes) : List Piece :=
  let (state, found) := bytes.foldl
    (fun (state, found) byte =>
      let (next, more) := feed state byte
      (next, more.reverse ++ found))
    (none, [])
  match state with
  | none => found.reverse
  | some p => (.unfinished p.seen :: found).reverse

/-! ## Decoding -/

/-- The first place where bytes are not text. -/
inductive Fault where
  | invalid (validUpTo : Nat) (length : Nat)
  | unfinished (validUpTo : Nat)

def Fault.message : Fault → String
  | .invalid validUpTo length =>
    "invalid utf-8 sequence of " ++ toString length ++ " bytes from index " ++ toString validUpTo
  | .unfinished validUpTo =>
    "incomplete utf-8 byte sequence from index " ++ toString validUpTo

def firstFault : List Piece → (validUpTo : Nat) → Fault
  | [], n => .unfinished n
  | .char c :: rest, n => firstFault rest (n + c.utf8Size)
  | .broken length :: _, n => .invalid n length
  | .unfinished _ :: _, n => .unfinished n

/-- The text that bytes spell, if they are well formed. -/
def decode? (bytes : Bytes) : Option String :=
  String.fromUTF8? ⟨bytes.toArray⟩

/-- The text that bytes spell, or where they stop being text. -/
def decode (bytes : Bytes) : Except Fault String :=
  match decode? bytes with
  | some s => .ok s
  | none => .error (firstFault (scan bytes) 0)

/-- The text of any bytes, each maximal ill-formed part replaced by U+FFFD. -/
def decodeLossy (bytes : Bytes) : String :=
  String.ofList <| (scan bytes).map fun
    | .char c => c
    | .broken _ => '\uFFFD'
    | .unfinished _ => '\uFFFD'

end Utf8
end Text
end ForgeChores
