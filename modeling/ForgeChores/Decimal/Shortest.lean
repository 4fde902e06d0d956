/-!
# ForgeChores.Decimal.Shortest

The fewest decimal digits that read back as a given double, and of those the nearest to it.

A finite double is `m * 2 ^ q`. The reals that round to it form an interval around it, whose ends
belong to it exactly when `m` is even. For one digit, two digits and so on the value's two
neighbours on that decimal grid are tested in exact arithmetic; the first grid with a hit wins.
-/

namespace ForgeChores
namespace Decimal

/-- The parts of a positive finite double: its value is `mantissa * 2 ^ exponent`. `isBinade`
marks the least mantissa of its binade, below which doubles lie twice as close. -/
structure Binary where
  mantissa : Nat
  exponent : Int
  isBinade : Bool

/-- Reads the fields of a double's bits, the sign aside. -/
def Binary.ofBits (bits : Nat) : Binary :=
  let field : Nat := bits / Nat.pow 2 52 % Nat.pow 2 11
  let fraction : Nat := bits % Nat.pow 2 52
  if field == 0 then ⟨fraction, -1074, false⟩
  else ⟨fraction + Nat.pow 2 52, (field : Int) - 1075, fraction == 0 && field != 1⟩

/-- Digits and the power of ten they count. -/
structure Digits where
  digits : Nat
  exponent : Int

/-- A positive fraction. -/
structure Ratio where
  num : Nat
  den : Nat

/-- The value `n * 2 ^ e` as a fraction. -/
def scaled (n : Nat) (e : Int) : Ratio :=
  if 0 ≤ e then ⟨n * Nat.pow 2 e.toNat, 1⟩ else ⟨n, Nat.pow 2 (-e).toNat⟩

/-- The value `r / 10 ^ e` as a fraction. -/
def Ratio.shift (r : Ratio) (e : Int) : Ratio :=
  if 0 ≤ e then ⟨r.num, r.den * Nat.pow 10 e.toNat⟩ else ⟨r.num * Nat.pow 10 (-e).toNat, r.den⟩

/-- The exponent of the first digit: the `e` with `10 ^ e ≤ r < 10 ^ (e + 1)`. -/
def Ratio.magnitude (r : Ratio) : Int :=
  if r.den ≤ r.num then ((Nat.toDigits 10 (r.num / r.den)).length : Int) - 1
  else
    match (List.range 400).find? (fun j => r.den ≤ r.num * Nat.pow 10 (j + 1)) with
    | some j => -((j : Int) + 1)
    | none => -400

/-- The nearer of the value's two neighbours among the multiples of `10 ^ e`, if one of them lies
in the interval. -/
def onGrid (value low high : Ratio) (closed : Bool) (e : Int) : Option Digits :=
  let v := value.shift e
  let lo := low.shift e
  let hi := high.shift e
  let below := v.num / v.den
  let inside (n : Nat) : Bool :=
    let aboveLow := if closed then lo.num ≤ n * lo.den else lo.num < n * lo.den
    let belowHigh := if closed then n * hi.den ≤ hi.num else n * hi.den < hi.num
    aboveLow && belowHigh
  let rest := v.num % v.den
  let upFirst := v.den < 2 * rest || (v.den == 2 * rest && below % 2 == 1)
  let first := if upFirst then below + 1 else below
  let second := if upFirst then below else below + 1
  if 0 < first && inside first then some ⟨first, e⟩
  else if 0 < second && inside second then some ⟨second, e⟩
  else none

/-- Seventeen digits always suffice. -/
def shortest (b : Binary) : Digits :=
  let e := b.exponent - 2
  let value := scaled (4 * b.mantissa) e
  let low := scaled (4 * b.mantissa - (if b.isBinade then 1 else 2)) e
  let high := scaled (4 * b.mantissa + 2) e
  let closed := b.mantissa % 2 == 0
  let top := value.magnitude
  match (List.range 17).findSome? (fun (k : Nat) => onGrid value low high closed (top - k)) with
  | some d => d
  | none => ⟨b.mantissa, 0⟩

/-- Drops the zeros at the end of the digits. -/
def Digits.normalize (d : Digits) : Digits :=
  let rec go : Nat → Nat → Int → Digits
    | 0, n, e => ⟨n, e⟩
    | fuel + 1, n, e => if n % 10 == 0 && n != 0 then go fuel (n / 10) (e + 1) else ⟨n, e⟩
  go 20 d.digits d.exponent

end Decimal
end ForgeChores
