/-!
# ForgeChores.Duration

Spans of time and how they are written. A span is a natural number of nanoseconds.

A span whose end cannot be named on the clock is cut to `farFuture`: thirty years, which no
activity outlives.
-/

namespace ForgeChores

namespace Duration

def milliseconds (n : Nat) : Nat := n * 1000000

def seconds (n : Nat) : Nat := n * 1000000000

/-- The largest span: 64 bits of seconds and the last nanosecond. -/
def longest : Nat := 18446744073709551615999999999

/-- Thirty years. -/
def farFuture : Nat := seconds (86400 * 365 * 30)

/-- Whether the clock can name the instant this span away: it counts seconds in 63 bits. -/
def isReachable (d : Nat) : Bool := d < seconds (Nat.pow 2 63)

/-- The span that actually passes when `d` is asked for. -/
def effective (d : Nat) : Nat := if isReachable d then d else farFuture

/-- A fraction as digits after the point, without the point if it is zero. `width` is the number
of digits of the unit. -/
def fraction (width : Nat) (n : Nat) : List Char :=
  let digits := Nat.toDigits 10 n
  let padded := List.replicate (width - digits.length) '0' ++ digits
  match (padded.reverse.dropWhile (· == '0')).reverse with
  | [] => []
  | kept => '.' :: kept

/-- The whole part in the largest unit that is at least one, then the fraction without trailing
zeros: `1.5s`, `20ms`, `0ns`. -/
def text (d : Nat) : String :=
  let inUnit (size width : Nat) (unit : String) : String :=
    toString (d / size) ++ String.ofList (fraction width (d % size)) ++ unit
  if 1000000000 ≤ d then inUnit 1000000000 9 "s"
  else if 1000000 ≤ d then inUnit 1000000 6 "ms"
  else if 1000 ≤ d then inUnit 1000 3 "µs"
  else toString d ++ "ns"

end Duration
end ForgeChores
