import ForgeChores.Text.Utf8

/-!
# ForgeChores.Url.Percent

Percent-encoding: the bytes of a character as `%XX` with upper-case digits. What stays as it is
depends on the part of the URL; each part names the ASCII characters that it escapes. Controls and
everything outside of ASCII are escaped everywhere.
-/

namespace ForgeChores
namespace Percent

open Text (Bytes)

/-- Controls and everything that is not ASCII. -/
def isControl (c : Char) : Bool := c.toNat < 0x20 || 0x7F ≤ c.toNat

def inFragment (c : Char) : Bool :=
  isControl c || c == ' ' || c == '\x22' || c == '<' || c == '>' || c == '\x60'

def inPath (c : Char) : Bool :=
  inFragment c || c == '#' || c == '?' || c == '\x7b' || c == '\x7d'

/-- Inside of one segment the separators are escaped as well, and the percent sign, so that what
looks like an escape stays text. -/
def inSegment (c : Char) : Bool := inPath c || c == '/' || c == '%'

/-- In a special URL the backslash separates too. -/
def inSpecialSegment (c : Char) : Bool := inSegment c || c == '\\'

def inUserinfo (c : Char) : Bool :=
  inPath c || c == '/' || c == ':' || c == ';' || c == '=' || c == '@' || c == '[' || c == '\\' ||
    c == ']' || c == '^' || c == '|'

def inQuery (c : Char) : Bool :=
  isControl c || c == ' ' || c == '\x22' || c == '#' || c == '<' || c == '>'

def inSpecialQuery (c : Char) : Bool := inQuery c || c == '\x27'

def escapeByte (b : UInt8) : List Char :=
  ['%', Text.upperHexDigit (b.toNat / 16), Text.upperHexDigit (b.toNat % 16)]

def escapeChar (c : Char) : List Char := (String.utf8EncodeChar c).flatMap escapeByte

/-- Escapes the characters of `escaped` and no others. -/
def encode (escaped : Char → Bool) (l : List Char) : List Char :=
  l.flatMap fun c => if escaped c then escapeChar c else [c]

/-- Reads `%XX`; a percent sign that is followed by anything else stands for itself. -/
def decodeBytes : Bytes → Bytes
  | 0x25 :: h :: l :: rest =>
    match Text.digitValue? (Char.ofNat h.toNat), Text.digitValue? (Char.ofNat l.toNat) with
    | some h', some l' =>
      if h' < 16 && l' < 16 then UInt8.ofNat (h' * 16 + l') :: decodeBytes rest
      else 0x25 :: decodeBytes (h :: l :: rest)
    | _, _ => 0x25 :: decodeBytes (h :: l :: rest)
  | b :: rest => b :: decodeBytes rest
  | [] => []

/-- The bytes of an escaped text. -/
def decode (s : String) : Bytes := decodeBytes (Text.Utf8.encode s)

/-! ## Forms -/

/-- What stays in a query pair. -/
def isFormSafe (c : Char) : Bool :=
  ('A' ≤ c && c ≤ 'Z') || ('a' ≤ c && c ≤ 'z') || Text.isDigit c || c == '*' || c == '-' ||
    c == '.' || c == '_'

/-- A name or value of a query pair: a space is a plus. -/
def formEncode (s : String) : List Char :=
  s.toList.flatMap fun c =>
    if isFormSafe c then [c] else if c == ' ' then ['+'] else escapeChar c

end Percent
end ForgeChores
