import ForgeChores.Text
import ForgeChores.Toml

/-!
# ForgeChores.Toml.Scalar

Scalars that are written as one word: integers, floats, booleans and dates.

Digits may be grouped by single underscores. An integer has 64 bits with a sign. Of floats,
booleans and dates only the form is read.
-/

namespace ForgeChores
namespace Toml

open Text (isDigit)

/-- The characters that such words are made of. -/
def isWordChar (c : Char) : Bool :=
  c.isAlphanum || c == '+' || c == '-' || c == '_' || c == '.' || c == ':'

/-- Digits without the underscores between them. -/
def ungroup (isOne : Char → Bool) : List Char → Option (List Char)
  | [] => none
  | [c] => if isOne c then some [c] else none
  | c :: '_' :: rest => if isOne c then (ungroup isOne rest).map (c :: ·) else none
  | c :: rest => if isOne c then (ungroup isOne rest).map (c :: ·) else none

def isDigitOf (base : Nat) (c : Char) : Bool :=
  match Text.digitValue? c with
  | some d => d < base
  | none => false

/-- Takes a sign away; `true` for a minus. -/
def sign : List Char → Bool × List Char
  | '-' :: rest => (true, rest)
  | '+' :: rest => (false, rest)
  | l => (false, l)

/-- Decimal digits of which only a single one may be a leading zero. -/
def decimal? (l : List Char) : Option (List Char) := do
  let digits ← ungroup isDigit l
  if digits.head? = some '0' && 1 < digits.length then none else some digits

/-- An integer in another base. -/
def based? (base : Nat) (l : List Char) : Option Int := do
  let n ← Text.readDigits base (← ungroup (isDigitOf base) l)
  if n < Nat.pow 2 63 then some n else none

def integer? (word : List Char) : Option Int :=
  match word with
  | '0' :: 'x' :: rest => based? 16 rest
  | '0' :: 'o' :: rest => based? 8 rest
  | '0' :: 'b' :: rest => based? 2 rest
  | _ => do
    let (isNegative, l) := sign word
    let n ← Text.readDigits 10 (← decimal? l)
    if isNegative then
      if n ≤ Nat.pow 2 63 then some (-(n : Int)) else none
    else if n < Nat.pow 2 63 then some n
    else none

/-! ## Floats -/

def isExponent (l : List Char) : Bool := (ungroup isDigit (sign l).2).isSome

/-- Splits at the first character of `p`, which is left out. -/
def splitFirst (p : Char → Bool) (l : List Char) : Option (List Char × List Char) :=
  match l.dropWhile fun c => !p c with
  | [] => none
  | _ :: after => some (l.takeWhile fun c => !p c, after)

/-- A mantissa has a point if it has no exponent. -/
def isFloat (word : List Char) : Bool :=
  let (_, l) := sign word
  if l == ['i', 'n', 'f'] || l == ['n', 'a', 'n'] then true
  else
    let (mantissa, exponent) :=
      match splitFirst (fun c => c == 'e' || c == 'E') l with
      | some (m, e) => (m, some e)
      | none => (l, none)
    let exponentOk := exponent.all isExponent
    match splitFirst (· == '.') mantissa with
    | some (whole, fraction) =>
      (decimal? whole).isSome && (ungroup isDigit fraction).isSome && exponentOk
    | none => exponent.isSome && (decimal? mantissa).isSome && exponentOk

/-! ## Dates -/

/-- Exactly `width` digits, and what follows. -/
def digits? (width : Nat) (l : List Char) : Option (Nat × List Char) := do
  let d := l.take width
  if d.length = width && d.all isDigit then
    let n ← Text.readDigits 10 d
    some (n, l.drop width)
  else none

def daysInMonth (year month : Nat) : Nat :=
  if month = 2 then
    if year % 4 = 0 && (year % 100 ≠ 0 || year % 400 = 0) then 29 else 28
  else if month = 4 || month = 6 || month = 9 || month = 11 then 30
  else 31

/-- A date, and what follows. -/
def date? (l : List Char) : Option (List Char) := do
  let (year, l) ← digits? 4 l
  let '-' :: l := l | none
  let (month, l) ← digits? 2 l
  let '-' :: l := l | none
  let (day, l) ← digits? 2 l
  if 1 ≤ month && month ≤ 12 && 1 ≤ day && day ≤ daysInMonth year month then some l else none

/-- A time of day, and what follows. -/
def time? (l : List Char) : Option (List Char) := do
  let (hour, l) ← digits? 2 l
  let ':' :: l := l | none
  let (minute, l) ← digits? 2 l
  let ':' :: l := l | none
  let (second, l) ← digits? 2 l
  if 23 < hour || 59 < minute || 60 < second then none
  match l with
  | '.' :: fraction =>
    if (fraction.takeWhile isDigit).isEmpty then none else some (fraction.dropWhile isDigit)
  | l => some l

/-- The distance to universal time. -/
def isOffset (l : List Char) : Bool :=
  match l with
  | ['Z'] => true
  | ['z'] => true
  | c :: rest =>
    (c == '+' || c == '-') &&
      match digits? 2 rest with
      | some (hour, ':' :: rest) =>
        match digits? 2 rest with
        | some (minute, []) => hour ≤ 23 && minute ≤ 59
        | _ => false
      | _ => false
  | [] => false

/-- A time of day, with or without an offset. -/
def isTimeOfDate (l : List Char) : Bool :=
  match time? l with
  | some [] => true
  | some rest => isOffset rest
  | none => false

def isDate (word : List Char) : Bool := date? word == some []

/-- A date, a time, or both joined by a letter. -/
def isMoment (word : List Char) : Bool :=
  match date? word with
  | some [] => true
  | some (c :: rest) => (c == 'T' || c == 't') && isTimeOfDate rest
  | none => time? word == some []

/-- The value of a word. -/
def word? (word : List Char) : Option Value :=
  match integer? word with
  | some n => some (.integer n)
  | none =>
    if word == "true".toList || word == "false".toList || isFloat word || isMoment word then
      some .other
    else none

end Toml
end ForgeChores
