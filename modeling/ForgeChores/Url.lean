import ForgeChores.Url.Percent

/-!
# ForgeChores.Url

URLs and the two ways in which requests extend them: path segments and query pairs.

A path is a list of segments, each written after a slash, so `/` is one empty segment. Appending
works on the list: a trailing empty segment is dropped once (`withoutTrailingSlash`), and a pushed
segment takes the place of a lone empty one, since there is only one way to write the root.
-/

namespace ForgeChores

/-- Where a URL points: user information, host and port, already in their written form. -/
structure Authority where
  username : String
  password : Option String
  host : String
  port : Option Nat
deriving DecidableEq

/-- A path without segments is written as it is and cannot be extended. -/
inductive UrlPath where
  | rootless (text : String)
  | segments (parts : List String)
deriving DecidableEq

structure Url where
  scheme : String
  authority : Option Authority
  path : UrlPath
  query : Option String
  fragment : Option String
deriving DecidableEq

namespace Authority

/-- User information and host, as written before the path. -/
def text (a : Authority) : String :=
  let password :=
    match a.password with
    | some p => ":" ++ p
    | none => ""
  let user := if a.username.isEmpty && a.password.isNone then "" else a.username ++ password ++ "@"
  let port :=
    match a.port with
    | some p => ":" ++ toString p
    | none => ""
  user ++ a.host ++ port

end Authority

namespace UrlPath

def text : UrlPath → String
  | .rootless t => t
  | .segments parts => parts.foldl (fun acc part => acc ++ "/" ++ part) ""

/-- Drops one empty segment at the end of a longer path. -/
def withoutTrailingSlash (parts : List String) : List String :=
  if parts.getLast? = some "" ∧ 1 < parts.length then parts.dropLast else parts

/-- Puts a written segment at the end. The root holds it instead of its empty segment. -/
def add (parts : List String) (written : String) : List String :=
  if parts = [""] then [written] else parts ++ [written]

/-- Appends one segment. Dots are no segments and are skipped; tab, line feed and carriage return
are dropped. What is left of a segment may be dots again: then it is resolved. -/
def push (escaped : Char → Bool) (parts : List String) (segment : String) : List String :=
  if segment = "." ∨ segment = ".." then parts
  else
    let kept := segment.toList.filter fun c => c != '\t' && c != '\n' && c != '\r'
    if kept = ['.'] then add parts ""
    else if kept = ['.', '.'] then
      if parts = [""] then parts else parts.dropLast ++ [""]
    else add parts (String.ofList (Percent.encode escaped kept))

end UrlPath

namespace Url

/-- Schemes whose URLs always have a host, with their default ports. -/
def specialSchemes : List (String × Nat) :=
  [("http", 80), ("https", 443), ("ws", 80), ("wss", 443), ("ftp", 21)]

def isSpecialScheme (scheme : String) : Bool :=
  scheme == "file" || specialSchemes.any (·.1 == scheme)

def text (u : Url) : String :=
  let authority :=
    match u.authority with
    | some a => "//" ++ a.text
    | none => ""
  let query :=
    match u.query with
    | some q => "?" ++ q
    | none => ""
  let fragment :=
    match u.fragment with
    | some f => "#" ++ f
    | none => ""
  u.scheme ++ ":" ++ authority ++ u.path.text ++ query ++ fragment

/-- Whether segments can be appended. -/
def hasSegments (u : Url) : Bool :=
  match u.path with
  | .segments _ => true
  | .rootless _ => false

/-- Whether requests can be sent there. -/
def isHttp (u : Url) : Bool := u.scheme == "http" || u.scheme == "https"

/-- Appends segments to the path, each escaped so that nothing in it separates. -/
def append (u : Url) (segments : List String) : Url :=
  match u.path with
  | .rootless _ => u
  | .segments parts =>
    let escaped :=
      if isSpecialScheme u.scheme then Percent.inSpecialSegment else Percent.inSegment
    { u with
      path := .segments
        (segments.foldl (UrlPath.push escaped) (UrlPath.withoutTrailingSlash parts)) }

/-- Adds a pair to the query. -/
def addQuery (u : Url) (name value : String) : Url :=
  let pair := String.ofList (Percent.formEncode name ++ '=' :: Percent.formEncode value)
  let query :=
    match u.query with
    | none => pair
    | some q => if q.isEmpty then pair else q ++ "&" ++ pair
  { u with query := some query }

/-- Adds pairs in order. -/
def addQueries (u : Url) (pairs : List (String × String)) : Url :=
  pairs.foldl (fun u (name, value) => u.addQuery name value) u

@[simp] theorem isHttp_append (u : Url) (segments : List String) :
    (u.append segments).isHttp = u.isHttp := by
  unfold append
  split <;> rfl

@[simp] theorem isHttp_addQuery (u : Url) (name value : String) :
    (u.addQuery name value).isHttp = u.isHttp := rfl

@[simp] theorem isHttp_addQueries (u : Url) (pairs : List (String × String)) :
    (u.addQueries pairs).isHttp = u.isHttp := by
  unfold addQueries
  induction pairs generalizing u with
  | nil => rfl
  | cons pair rest ih => rw [List.foldl_cons, ih, isHttp_addQuery]

/-! ## Credentials -/

/-- The user and password that the URL carries. A user that is not text counts as none. -/
def credentials? (u : Url) : Option (String × Option String) := do
  let a ← u.authority
  let user ← Text.Utf8.decode? (Percent.decode a.username)
  let password := a.password.bind fun p => Text.Utf8.decode? (Percent.decode p)
  if user.isEmpty && password.isNone then none else some (user, password)

/-- The URL as it goes over the wire: credentials travel in a header instead. -/
def withoutCredentials (u : Url) : Url :=
  if u.credentials?.isSome then
    { u with authority := u.authority.map fun a => { a with username := "", password := none } }
  else u

end Url
end ForgeChores
