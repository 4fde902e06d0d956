import ForgeChores.Json
import ForgeChores.Decimal.Shortest

/-!
# ForgeChores.Json.Number

Number literals: their grammar, the value they stand for and how a value is written.

A whole literal that 64 bits hold is itself. Any other is read in two roundings: the significant
digits to a double, as many as fit in 64 bits, and then one product or quotient with a power of
ten. A literal beyond the largest double has no value.
-/

namespace ForgeChores
namespace Json

open Text (isDigit)

/-- A literal taken apart: sign, whole digits, digits after the point, and the exponent's sign and
digits. -/
structure Literal where
  isNegative : Bool
  whole : List Char
  fraction : Option (List Char)
  exponent : Option (Bool × List Char)

namespace Literal

/-- Digits up to the first other character; at least one. -/
def takeDigits (l : List Char) : Option (List Char × List Char) :=
  match l.takeWhile isDigit with
  | [] => none
  | digits => some (digits, l.dropWhile isDigit)

def parseExponent : List Char → Option (Option (Bool × List Char))
  | [] => some none
  | c :: rest =>
    if c == 'e' || c == 'E' then do
      let (isNegative, digits) :=
        match rest with
        | '-' :: r => (true, r)
        | '+' :: r => (false, r)
        | r => (false, r)
      let (digits, tail) ← takeDigits digits
      if tail.isEmpty then some (some (isNegative, digits)) else none
    else none

/-- The whole of `l` as one literal. A leading zero stands alone. -/
def parse? (l : List Char) : Option Literal := do
  let (isNegative, l) :=
    match l with
    | '-' :: rest => (true, rest)
    | l => (false, l)
  let (whole, rest) ← takeDigits l
  if whole.head? == some '0' && 1 < whole.length then none
  match rest with
  | '.' :: rest =>
    let (fraction, rest) ← takeDigits rest
    let exponent ← parseExponent rest
    some ⟨isNegative, whole, some fraction, exponent⟩
  | rest =>
    let exponent ← parseExponent rest
    some ⟨isNegative, whole, none, exponent⟩

def isWhole (l : Literal) : Bool := l.fraction.isNone && l.exponent.isNone

def digitsValue (digits : List Char) : Nat :=
  digits.foldl (fun n c => n * 10 + (c.toNat - '0'.toNat)) 0

/-- The literal as a natural number of 64 bits: no sign, no point, no exponent. -/
def natural? (l : Literal) : Option Nat :=
  if l.isWhole && !l.isNegative && digitsValue l.whole < Text.bound64 then
    some (digitsValue l.whole)
  else none

/-! ## The value of a literal -/

/-- Digits collected while 64 bits hold them, and how many did not fit. -/
def significant (start : Nat) (digits : List Char) : Nat × Nat :=
  digits.foldl
    (fun (n, dropped) c =>
      let next := n * 10 + (c.toNat - '0'.toNat)
      if dropped == 0 && next < Text.bound64 then (next, 0) else (n, dropped + 1))
    (start, 0)

/-- The product `x * 10 ^ e` for a power of ten that is a double. Past the largest one the product
has no value; past the smallest one the quotient is taken in steps. -/
def scale (x : Float) : (fuel : Nat) → (e : Int) → Option Float
  | 0, _ => some x
  | fuel + 1, e =>
    if e.natAbs ≤ 308 then
      let power := Float.ofScientific 1 false e.natAbs
      if 0 ≤ e then
        let y := x * power
        if y.isInf then none else some y
      else some (x / power)
    else if x == 0.0 then some x
    else if 0 ≤ e then none
    else scale (x / Float.ofScientific 1 false 308) fuel (e + 308)

/-- The largest exponent that is counted. -/
def exponentLimit : Nat := Nat.pow 2 31

/-- The magnitude of the literal, or nothing beyond the largest double. -/
def magnitude? (l : Literal) : Option Float :=
  let (n, droppedWhole) := significant 0 l.whole
  let (n, exponent) :=
    match l.fraction with
    | none => (n, (droppedWhole : Int))
    | some fraction =>
      if droppedWhole == 0 then
        let (m, dropped) := significant n fraction
        (m, -((fraction.length - dropped : Nat) : Int))
      else
        -- The digits after the point still join where there is room for them.
        let (m, dropped) := significant n fraction
        (m, (droppedWhole : Int) - ((fraction.length - dropped : Nat) : Int))
  let x := (UInt64.ofNat n).toFloat
  match l.exponent with
  | none => scale x 8 exponent
  | some (isNegative, digits) =>
    let e := digitsValue digits
    if exponentLimit ≤ e then
      if n != 0 && !isNegative then none else some 0.0
    else if isNegative then scale x (e + 8) (exponent - e)
    else scale x 8 (exponent + e)

/-- The value of a literal, if it has one. Minus zero is no whole number. -/
def value? (l : Literal) : Option Number :=
  let n := digitsValue l.whole
  if l.isWhole && !l.isNegative && n < Text.bound64 then some (.whole n)
  else if l.isWhole && l.isNegative && 0 < n && n ≤ Nat.pow 2 63 then some (.whole (-(n : Int)))
  else do
    let x ← l.magnitude?
    some (.real (if l.isNegative then -x else x))

end Literal

/-! ## Writing -/

/-- Positional with a point from `1e-5` up to sixteen digits, otherwise with an exponent. -/
def realText (x : Float) : String :=
  let bits := x.toBits.toNat
  let sign := if bits < Nat.pow 2 63 then "" else "-"
  let magnitude := bits % Nat.pow 2 63
  if magnitude == 0 then sign ++ "0.0"
  else
    let d := (Decimal.shortest (Decimal.Binary.ofBits magnitude)).normalize
    let digits := (toString d.digits).toList
    let length : Int := digits.length
    -- The place of the point, counted from the first digit.
    let point := length + d.exponent
    let body : List Char :=
      if 0 ≤ d.exponent && point ≤ 16 then
        digits ++ List.replicate d.exponent.toNat '0' ++ ['.', '0']
      else if 0 < point && point ≤ 16 then
        digits.take point.toNat ++ '.' :: digits.drop point.toNat
      else if -5 < point && point ≤ 0 then
        '0' :: '.' :: List.replicate (-point).toNat '0' ++ digits
      else
        let exponent := (toString (point - 1)).toList
        match digits with
        | [d] => d :: 'e' :: exponent
        | d :: rest => d :: '.' :: rest ++ 'e' :: exponent
        | [] => []
    sign ++ String.ofList body

def Number.text : Number → String
  | .whole n => toString n
  | .real x => realText x

end Json
end ForgeChores
