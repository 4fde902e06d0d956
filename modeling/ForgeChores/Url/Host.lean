import ForgeChores.Url.Percent
import ForgeChores.Url.Punycode

/-!
# ForgeChores.Url.Host

The host of a URL: an IPv6 address in brackets, an IPv4 address in any of its spellings, or a
domain name.

A domain name is unescaped, brought to lower case and spelled in ASCII. Characters that would end
a host, and controls, are refused.
-/

namespace ForgeChores

/-- Why a text is no URL. -/
inductive UrlError where
  | relative
  | emptyHost
  | invalidPort
  | invalidIpv4
  | invalidIpv6
  | invalidDomain
  | invalidDomainCharacter
deriving DecidableEq

def UrlError.message : UrlError → String
  | .relative => "relative URL without a base"
  | .emptyHost => "empty host"
  | .invalidPort => "invalid port number"
  | .invalidIpv4 => "invalid IPv4 address"
  | .invalidIpv6 => "invalid IPv6 address"
  | .invalidDomain => "invalid international domain name"
  | .invalidDomainCharacter => "invalid domain character"

namespace Host

/-! ## IPv4 -/

/-- A part of an address: decimal, octal after `0` or hexadecimal after `0x`. -/
def part? : List Char → Option Nat
  | [] => none
  | ['0'] => some 0
  | '0' :: x :: rest =>
    if x == 'x' || x == 'X' then (if rest.isEmpty then some 0 else Text.readDigits 16 rest)
    else Text.readDigits 8 (x :: rest)
  | l => Text.readDigits 10 l

/-- The labels, without an empty one after the last dot. -/
def labels (domain : List Char) : List (List Char) :=
  let parts := Text.splitOn '.' domain
  if parts.getLast? == some [] && 1 < parts.length then parts.dropLast else parts

/-- Whether the last label is a number, so that the host has to be an address. -/
def endsInNumber (domain : List Char) : Bool :=
  match (labels domain).getLast? with
  | none => false
  | some last =>
    (!last.isEmpty && last.all Text.isDigit) ||
      (match last with
        | '0' :: x :: rest =>
          (x == 'x' || x == 'X') && (rest.isEmpty || (Text.readDigits 16 rest).isSome)
        | _ => false)

/-- Up to four parts; the last one fills the bytes that are left. -/
def ipv4? (domain : List Char) : Option Nat := do
  let parts ← (labels domain).mapM part?
  match parts.reverse with
  | [] => none
  | last :: front =>
    let front := front.reverse
    if 3 < front.length || front.any (255 < ·) || Nat.pow 256 (4 - front.length) ≤ last then none
    else
      let high := (List.range front.length).foldl
        (fun acc i => acc + (front.getD i 0) * Nat.pow 256 (3 - i)) 0
      some (high + last)

def ipv4Text (n : Nat) : String :=
  toString (n / 16777216) ++ "." ++ toString (n / 65536 % 256) ++ "." ++
    toString (n / 256 % 256) ++ "." ++ toString (n % 256)

/-! ## IPv6 -/

/-- One to four hexadecimal digits. -/
def piece? (l : List Char) : Option Nat :=
  if l.length ≤ 4 then Text.readDigits 16 l else none

/-- A decimal byte without leading zeros. -/
def byte? (l : List Char) : Option Nat := do
  let n ← if l.all Text.isDigit then Text.readDigits 10 l else none
  if n ≤ 255 && (l.length == 1 || l.head? != some '0') then some n else none

/-- Two pieces written as a dotted address. -/
def dotted? (l : List Char) : Option (List Nat) :=
  match (Text.splitOn '.' l).mapM byte? with
  | some [a, b, c, d] => some [a * 256 + b, c * 256 + d]
  | _ => none

/-- Pieces between colons; the last one may be dotted. -/
def pieces? (mayBeDotted : Bool) (l : List Char) : Option (List Nat) :=
  if l.isEmpty then some []
  else
    let parts := Text.splitOn ':' l
    match parts.reverse with
    | [] => some []
    | last :: front => do
      let front ← front.reverse.mapM piece?
      match piece? last with
      | some n => some (front ++ [n])
      | none => if mayBeDotted then (dotted? last).map (front ++ ·) else none

/-- What stands before and after the first `::`. -/
def splitGap : List Char → Option (List Char × List Char)
  | ':' :: ':' :: rest => some ([], rest)
  | c :: rest => (splitGap rest).map fun (before, after) => (c :: before, after)
  | [] => none

/-- Eight pieces. A gap stands for at least one piece. -/
def ipv6? (l : List Char) : Option (List Nat) :=
  match splitGap l with
  | none => do
    let all ← pieces? true l
    if all.length == 8 then some all else none
  | some (before, after) => do
    let before ← pieces? false before
    let after ← pieces? true after
    let known := before.length + after.length
    if known ≤ 7 then some (before ++ List.replicate (8 - known) 0 ++ after) else none

/-- The longest run of two or more zeros, the first of several: start and length. -/
def zeroRun (l : List Nat) : Option (Nat × Nat) :=
  let runs := (List.range l.length).map fun i => (i, ((l.drop i).takeWhile (· == 0)).length)
  runs.foldl
    (fun best (i, n) =>
      match best with
      | some (_, m) => if m < n then some (i, n) else best
      | none => if 2 ≤ n then some (i, n) else none)
    none

def ipv6Text (l : List Nat) : String :=
  let join (l : List Nat) : String := ":".intercalate (l.map Text.hexText)
  match zeroRun l with
  | none => "[" ++ join l ++ "]"
  | some (i, n) => "[" ++ join (l.take i) ++ "::" ++ join (l.drop (i + n)) ++ "]"

/-! ## Domain names -/

/-- Characters that no domain name holds. -/
def isForbidden (c : Char) : Bool :=
  c.toNat ≤ 0x20 || c.toNat == 0x7F || c == '#' || c == '%' || c == '/' || c == ':' || c == '<' ||
    c == '>' || c == '?' || c == '@' || c == '[' || c == '\\' || c == ']' || c == '^' ||
    c == '\x60' || c == '\x7b' || c == '|' || c == '\x7d'

/-- Brings a character to the form in which names are compared: letters of the Latin, Greek and
Cyrillic ranges to lower case, full-width forms to ASCII and ideographic stops to a dot. The soft
hyphen and its invisible relatives vanish. -/
def fold (c : Char) : List Char :=
  let n := c.toNat
  if n < 0x80 then [c.toLower]
  else if n == 0xAD || (0x200B ≤ n && n ≤ 0x200B) || n == 0x2060 || n == 0xFEFF then []
  else if n == 0x3002 || n == 0xFF0E || n == 0xFF61 then ['.']
  else if 0xFF01 ≤ n && n ≤ 0xFF5E then [(Char.ofNat (n - 0xFEE0)).toLower]
  else if (0xC0 ≤ n && n ≤ 0xDE && n != 0xD7) || (0x391 ≤ n && n ≤ 0x3A9) ||
      (0x410 ≤ n && n ≤ 0x42F) then [Char.ofNat (n + 0x20)]
  else if 0x400 ≤ n && n ≤ 0x40F then [Char.ofNat (n + 0x50)]
  else if 0x100 ≤ n && n ≤ 0x137 && n % 2 == 0 then [Char.ofNat (n + 1)]
  else [c]

def labelText (label : List Char) : List Char :=
  if label.all (fun c => c.toNat < 0x80) then label
  else ['x', 'n', '-', '-'] ++ Punycode.encode label

/-- The ASCII form of a domain name. -/
def domain? (name : List Char) : Option (List Char) :=
  let folded := name.flatMap fold
  if folded.any isForbidden then none
  else
    some (['.'].intercalate ((Text.splitOn '.' folded).map labelText))

/-- The host of a special URL, as written. -/
def parse (text : List Char) : Except UrlError String :=
  match text with
  | '[' :: rest =>
    if rest.getLast? == some ']' then
      match ipv6? rest.dropLast with
      | some pieces => .ok (ipv6Text pieces)
      | none => .error .invalidIpv6
    else .error .invalidIpv6
  | _ =>
    let decoded := Text.Utf8.decode? (Percent.decode (String.ofList text))
    match decoded.bind fun s => domain? s.toList with
    | none => .error .invalidDomain
    | some [] => .error .emptyHost
    | some domain =>
      if endsInNumber domain then
        match ipv4? domain with
        | some n => .ok (ipv4Text n)
        | none => .error .invalidIpv4
      else .ok (String.ofList domain)

/-- The host of any other URL stays as it is. -/
def parseOther (text : List Char) : Except UrlError String :=
  match text with
  | '[' :: _ => parse text
  | _ =>
    if text.any (fun c => c != '%' && c.toNat != 0x7F && isForbidden c) then
      .error .invalidDomainCharacter
    else .ok (String.ofList (Percent.encode Percent.isControl text))

end Host
end ForgeChores
