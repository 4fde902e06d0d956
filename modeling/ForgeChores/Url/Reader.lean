import ForgeChores.Url
import ForgeChores.Url.Host

/-!
# ForgeChores.Url.Reader

Reading absolute URLs as browsers do: spaces around the text and tabs and line breaks in it are
dropped, a special scheme takes any number of slashes, backslashes separate like slashes, and dots
in the path are resolved.
-/

namespace ForgeChores
namespace Url

/-- What a scheme says about the rest. -/
inductive SchemeKind where
  | file
  | special
  | other
deriving DecidableEq

def schemeKind (scheme : String) : SchemeKind :=
  if scheme == "file" then .file else if isSpecialScheme scheme then .special else .other

/-- The text without controls and spaces around it and without tabs and line breaks. -/
def clean (s : String) : List Char :=
  (Text.stripWhile (fun c => c.toNat ≤ 0x20) s.toList).filter
    fun c => c != '\t' && c != '\n' && c != '\r'

/-- The scheme in lower case and what follows its colon. -/
def splitScheme (l : List Char) : Option (String × List Char) :=
  let isSchemeChar (c : Char) : Bool := c.isAlphanum || c == '+' || c == '-' || c == '.'
  match l with
  | c :: _ =>
    if c.isAlpha then
      match l.dropWhile isSchemeChar with
      | ':' :: rest => some (String.ofList ((l.takeWhile isSchemeChar).map Char.toLower), rest)
      | _ => none
    else none
  | [] => none

/-- Whether a character ends the authority. -/
def endsAuthority (kind : SchemeKind) (c : Char) : Bool :=
  c == '/' || c == '?' || c == '#' || (kind != .other && c == '\\')

/-! ## Authority -/

/-- User name and password, escaped. An empty password is none. -/
def userinfo (l : List Char) : String × Option String :=
  let name := l.takeWhile (· != ':')
  let password := (l.dropWhile (· != ':')).drop 1
  let write (l : List Char) : String := String.ofList (Percent.encode Percent.inUserinfo l)
  (write name, if password.isEmpty then none else some (write password))

/-- Host text and port text: the first colon outside of brackets separates them. -/
def splitPort : List Char → (inside : Bool) → List Char × Option (List Char)
  | [], _ => ([], none)
  | c :: rest, inside =>
    if c == ':' && !inside then ([], some rest)
    else
      let inside := if c == '[' then true else if c == ']' then false else inside
      let (host, port) := splitPort rest inside
      (c :: host, port)

/-- A port of 16 bits. None is written for an empty text and for the default. -/
def readPort (scheme : String) (l : List Char) : Except UrlError (Option Nat) :=
  if l.isEmpty then .ok none
  else if l.all Text.isDigit then
    match Text.readDigits 10 l with
    | some n =>
      if 65535 < n then .error .invalidPort
      else .ok (if specialSchemes.lookup scheme == some n then none else some n)
    | none => .error .invalidPort
  else .error .invalidPort

/-- Everything between the slashes and the path. -/
def readAuthority (scheme : String) (kind : SchemeKind) (l : List Char) :
    Except UrlError Authority := do
  let (user, rest) :=
    match Text.splitLast '@' l with
    | some (user, rest) => (some user, rest)
    | none => (none, l)
  if user == some [] && rest.isEmpty then throw .emptyHost
  let (username, password) := (user.map userinfo).getD ("", none)
  let hasUser := !username.isEmpty || password.isSome
  let (hostText, portText) := splitPort rest false
  if hostText.isEmpty then
    if kind == .special || portText.isSome || hasUser then throw .emptyHost
    return ⟨username, password, "", none⟩
  let host ← if kind == .other then Host.parseOther hostText else Host.parse hostText
  let port ←
    match portText with
    | some p => readPort scheme p
    | none => pure none
  return ⟨username, password, host, port⟩

/-! ## Path -/

/-- Whether a segment is one dot, perhaps escaped. -/
def isDot (l : List Char) : Bool := l == ['.'] || l.map Char.toLower == ['%', '2', 'e']

/-- Whether a segment is two dots, perhaps escaped. -/
def isDotDot (l : List Char) : Bool :=
  let l := l.map Char.toLower
  l == ['.', '.'] || l == ['.', '%', '2', 'e'] || l == ['%', '2', 'e', '.'] ||
    l == ['%', '2', 'e', '%', '2', 'e']

/-- Resolves dots. The last segment stands even when it is empty. -/
def resolve : (resolved : List (List Char)) → List (List Char) → List (List Char)
  | resolved, [] => resolved
  | resolved, [last] =>
    if isDotDot last then resolved.dropLast ++ [[]]
    else if isDot last then resolved ++ [[]]
    else resolved ++ [last]
  | resolved, part :: rest =>
    if isDotDot part then resolve resolved.dropLast rest
    else if isDot part then resolve resolved rest
    else resolve (resolved ++ [part]) rest

/-- Segments between separators. -/
def splitPath (kind : SchemeKind) (l : List Char) : List (List Char) :=
  Text.splitOn '/' (if kind == .other then l else l.map fun c => if c == '\\' then '/' else c)

/-- The path after an authority. A special URL always has one. -/
def readPath (kind : SchemeKind) (l : List Char) : UrlPath :=
  let parts := splitPath kind l
  match kind, parts with
  | .other, [[]] => .segments []
  | _, parts =>
    -- The slash that begins the path makes an empty part in front of it.
    let parts :=
      match parts with
      | [] :: p :: rest => p :: rest
      | parts => parts
    let resolved := resolve [] parts
    let resolved := if kind == .file then
        match resolved.dropWhile (·.isEmpty) with
        | [] => [[]]
        | kept => kept
      else resolved
    .segments (resolved.map fun part => String.ofList (Percent.encode Percent.inPath part))

/-! ## The whole -/

/-- Path text, query and fragment. -/
def splitTail (l : List Char) : List Char × Option (List Char) × Option (List Char) :=
  let beforeFragment := l.takeWhile (· != '#')
  let fragment :=
    match l.dropWhile (· != '#') with
    | [] => none
    | _ :: rest => some rest
  let path := beforeFragment.takeWhile (· != '?')
  let query :=
    match beforeFragment.dropWhile (· != '?') with
    | [] => none
    | _ :: rest => some rest
  (path, query, fragment)

/-- Reads an absolute URL. -/
def parse (s : String) : Except UrlError Url := do
  let some (scheme, rest) := splitScheme (clean s) | throw .relative
  let kind := schemeKind scheme
  let (body, query, fragment) := splitTail rest
  let encodeQuery (q : List Char) : String :=
    String.ofList (Percent.encode
      (if kind == .other then Percent.inQuery else Percent.inSpecialQuery) q)
  let query := query.map encodeQuery
  let fragment := fragment.map fun f => String.ofList (Percent.encode Percent.inFragment f)
  let isSlash (c : Char) : Bool := c == '/' || (kind != .other && c == '\\')
  match kind with
  | .special =>
    let body := body.dropWhile isSlash
    let authority ← readAuthority scheme kind (body.takeWhile (!isSlash ·))
    return ⟨scheme, some authority, readPath kind (body.dropWhile (!isSlash ·)), query, fragment⟩
  | .file =>
    match body with
    | a :: b :: rest =>
      if isSlash a && isSlash b then
        let hostText := rest.takeWhile (!isSlash ·)
        let host ← if hostText.isEmpty then pure "" else Host.parse hostText
        let host := if host == "localhost" then "" else host
        return ⟨scheme, some ⟨"", none, host, none⟩, readPath kind (rest.dropWhile (!isSlash ·)),
          query, fragment⟩
      else return ⟨scheme, some ⟨"", none, "", none⟩, readPath kind body, query, fragment⟩
    | body => return ⟨scheme, some ⟨"", none, "", none⟩, readPath kind body, query, fragment⟩
  | .other =>
    match body with
    | '/' :: '/' :: rest =>
      let authority ← readAuthority scheme kind (rest.takeWhile (· != '/'))
      return ⟨scheme, some authority, readPath kind (rest.dropWhile (· != '/')), query, fragment⟩
    | '/' :: _ => return ⟨scheme, none, readPath kind body, query, fragment⟩
    | body =>
      return ⟨scheme, none, .rootless (String.ofList (Percent.encode Percent.isControl body)),
        query, fragment⟩

end Url
end ForgeChores
