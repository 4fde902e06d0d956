import ForgeChores.Text

/-!
# ForgeChores.Url.Punycode

Host labels beyond ASCII, spelled with ASCII letters and digits.

The basic characters come first, then a hyphen, then one variable-length number for each other
character: how far the pair of code point and position has moved since the last one.
-/

namespace ForgeChores
namespace Punycode

def digit (n : Nat) : Char :=
  if n < 26 then Char.ofNat ('a'.toNat + n) else Char.ofNat ('0'.toNat + (n - 26))

/-- The threshold of a digit place. -/
def threshold (place bias : Nat) : Nat := max 1 (min 26 (place - bias))

/-- Adapts the bias to the size of the last step. -/
def adapt (delta count : Nat) (isFirst : Bool) : Nat :=
  let delta := if isFirst then delta / 700 else delta / 2
  let rec shrink : Nat → Nat → Nat → Nat
    | 0, delta, k => k + 36 * delta / (delta + 38)
    | fuel + 1, delta, k =>
      if 455 < delta then shrink fuel (delta / 35) (k + 36) else k + 36 * delta / (delta + 38)
  shrink 20 (delta + delta / count) 0

/-- A number, least significant digit first; the first digit below its threshold ends it. -/
def numberDigits (bias : Nat) : (fuel : Nat) → (q place : Nat) → List Char
  | 0, _, _ => []
  | fuel + 1, q, place =>
    let t := threshold place bias
    if q < t then [digit q]
    else digit (t + (q - t) % (36 - t)) :: numberDigits bias fuel ((q - t) / (36 - t)) (place + 36)

/-- The state between two extended characters. -/
structure Progress where
  output : List Char
  codePoint : Nat
  delta : Nat
  bias : Nat
  handled : Nat

/-- Writes every occurrence of one code point. -/
def writeAll (label : List Char) (basic codePoint : Nat) (p : Progress) : Progress :=
  let p := { p with
    delta := p.delta + (codePoint - p.codePoint) * (p.handled + 1), codePoint := codePoint }
  let p := label.foldl
    (fun p c =>
      if c.toNat < codePoint then { p with delta := p.delta + 1 }
      else if c.toNat == codePoint then
        { p with
          output := p.output ++ numberDigits p.bias 64 p.delta 36,
          bias := adapt p.delta (p.handled + 1) (p.handled == basic),
          delta := 0,
          handled := p.handled + 1 }
      else p)
    p
  { p with delta := p.delta + 1, codePoint := codePoint + 1 }

/-- The spelling of a label. -/
def encode (label : List Char) : List Char :=
  let basic := label.filter fun c => c.toNat < 0x80
  let others := ((label.map Char.toNat).filter (0x80 ≤ ·)).mergeSort.eraseDups
  let start : Progress :=
    ⟨if basic.isEmpty then [] else basic ++ ['-'], 0x80, 0, 72, basic.length⟩
  (others.foldl (fun p n => writeAll label basic.length n p) start).output

end Punycode
end ForgeChores
