/-!
# ForgeChores.Text

Plain text: white space, trimming, splitting, searching and reading numbers.

Everything is defined on lists of characters and lifted to `String`, so that a statement about a
text is a statement about the list of its characters. White space is the Unicode property
`White_Space`; letter case is the ASCII one.
-/

namespace ForgeChores
namespace Text

/-- Bytes as they travel. -/
abbrev Bytes := List UInt8

/-- The Unicode property `White_Space`. The zero width space and the byte order mark lack it. -/
def isBlank (c : Char) : Bool :=
  let n := c.toNat
  (9 ≤ n && n ≤ 13) || n == 0x20 || n == 0x85 || n == 0xA0 || n == 0x1680 ||
    (0x2000 ≤ n && n ≤ 0x200A) || n == 0x2028 || n == 0x2029 || n == 0x202F || n == 0x205F ||
    n == 0x3000

def isDigit (c : Char) : Bool := '0' ≤ c && c ≤ '9'

/-! ## Trimming -/

def dropEndWhile {α : Type} (p : α → Bool) (l : List α) : List α :=
  (l.reverse.dropWhile p).reverse

/-- Drops the characters of `p` at both ends. -/
def stripWhile {α : Type} (p : α → Bool) (l : List α) : List α :=
  dropEndWhile p (l.dropWhile p)

/-- Drops the white space at both ends. -/
def trim (s : String) : String :=
  String.ofList (stripWhile isBlank s.toList)

/-- Drops every `c` at the end. -/
def trimEnd (c : Char) (s : String) : String :=
  String.ofList (dropEndWhile (· == c) s.toList)

/-- ASCII lower case; every other character stays. -/
def lower (s : String) : String :=
  String.ofList (s.toList.map Char.toLower)

/-! ## Searching and splitting -/

/-- Whether `part` stands somewhere in `text`. -/
def occursIn (part : List Char) : List Char → Bool
  | [] => part.isEmpty
  | c :: rest => part.isPrefixOf (c :: rest) || occursIn part rest

/-- Whether `text` contains `part`. -/
def contains (text part : String) : Bool :=
  occursIn part.toList text.toList

/-- The pieces between the occurrences of `sep`: always one more than there are occurrences. -/
def splitOn (sep : Char) : List Char → List (List Char)
  | [] => [[]]
  | c :: rest =>
    if c = sep then [] :: splitOn sep rest
    else
      match splitOn sep rest with
      | [] => [[c]]
      | piece :: pieces => (c :: piece) :: pieces

/-- The pieces of `s` between the occurrences of `sep`. -/
def pieces (sep : Char) (s : String) : List String :=
  (splitOn sep s.toList).map String.ofList

/-- What stands before and after the last `sep`. -/
def splitLast (sep : Char) (l : List Char) : Option (List Char × List Char) :=
  if sep ∈ l then
    let r := l.reverse
    some (((r.dropWhile (· != sep)).drop 1).reverse, (r.takeWhile (· != sep)).reverse)
  else
    none

/-! ## Numbers and columns -/

/-- The value of a digit in a base up to 36. -/
def digitValue? (c : Char) : Option Nat :=
  if '0' ≤ c && c ≤ '9' then some (c.toNat - '0'.toNat)
  else if 'a' ≤ c && c ≤ 'z' then some (c.toNat - 'a'.toNat + 10)
  else if 'A' ≤ c && c ≤ 'Z' then some (c.toNat - 'A'.toNat + 10)
  else none

/-- Digits of `base`, most significant first. Without a digit there is no number. -/
def readDigits (base : Nat) (digits : List Char) : Option Nat :=
  if digits.isEmpty then none
  else
    digits.foldl
      (fun acc c => do
        let n ← acc
        let d ← digitValue? c
        if d < base then some (n * base + d) else none)
      (some 0)

/-- A decimal number below `bound`. One leading `+` is allowed, and nothing else but digits. -/
def natural? (bound : Nat) (s : String) : Option Nat := do
  let digits :=
    match s.toList with
    | '+' :: rest => rest
    | l => l
  let n ← readDigits 10 digits
  if n < bound then some n else none

/-- How many values 32 bits hold. -/
def bound32 : Nat := Nat.pow 2 32

/-- How many values 64 bits hold. -/
def bound64 : Nat := Nat.pow 2 64

/-- Fills a column with spaces on the right; a longer text runs over. -/
def padRight (width : Nat) (s : String) : String :=
  s ++ String.ofList (List.replicate (width - s.length) ' ')

def lowerHexDigit (n : Nat) : Char :=
  if n < 10 then Char.ofNat ('0'.toNat + n) else Char.ofNat ('a'.toNat + (n - 10))

def upperHexDigit (n : Nat) : Char :=
  if n < 10 then Char.ofNat ('0'.toNat + n) else Char.ofNat ('A'.toNat + (n - 10))

/-- The last `width` hexadecimal digits of `n`. -/
def hexDigits : (width : Nat) → (n : Nat) → List Char
  | 0, _ => []
  | width + 1, n => hexDigits width (n / 16) ++ [lowerHexDigit (n % 16)]

/-- As many hexadecimal digits as `n` needs, at least one. -/
def hexText (n : Nat) : String :=
  String.ofList (Nat.toDigits 16 n)

end Text
end ForgeChores
