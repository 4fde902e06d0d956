import ForgeChores.Base64
import ForgeChores.Http
import ForgeChores.Text.Quoted
import ForgeChores.Url.Reader

/-!
# ForgeChores.Http.Client

A client of one REST API: where it lies and how the token is shown.

Operations only use the base URL. The token enters in `Client.message`, which adds the headers
that every request carries, so nothing that an operation does or reports can depend on it.
-/

namespace ForgeChores

/-- How the token is shown. -/
inductive Auth where
  /-- As `Authorization: Bearer <token>`. -/
  | bearer (token : String)
  /-- As `PRIVATE-TOKEN: <token>`. -/
  | privateToken (token : String)
  /-- As `Authorization: token <token>`. -/
  | token (token : String)

namespace Auth

def secret : Auth → String
  | .bearer t => t
  | .privateToken t => t
  | .token t => t

def kindName : Auth → String
  | .bearer _ => "Bearer"
  | .privateToken _ => "PrivateToken"
  | .token _ => "Token"

/-- The header that carries the token; none for an empty token. -/
def header? (a : Auth) : Option (String × String) :=
  if a.secret.isEmpty then none
  else
    some <|
      match a with
      | .bearer t => ("authorization", "Bearer " ++ t)
      | .privateToken t => ("private-token", t)
      | .token t => ("authorization", "token " ++ t)

/-- For people to read; never shows the token. -/
def summary (a : Auth) : String :=
  "Auth \x7b kind: " ++ Text.quoted a.kindName ++ ", has_token: " ++
    (if a.secret.isEmpty then "false" else "true") ++ " \x7d"

end Auth

/-- Whether a text can be the value of a header: no control character but the tab. -/
def isHeaderValue (s : String) : Bool :=
  s.toList.all fun c => c == '\t' || (0x20 ≤ c.toNat && c.toNat != 0x7F)

/-- A request as it goes out. -/
structure Message where
  method : Method
  url : Url
  headers : List (String × String)
  body : Option Json

/-- A REST API and the way to talk to it. -/
structure Client where
  base : Url
  auth : Auth
  extraHeaders : List (String × String)

namespace Client

def userAgent : String := "forgeops/0.3.0"

/-- A client for the API at `apiBase`; slashes at its end do not matter. -/
def connect (apiBase : String) (auth : Auth) (extraHeaders : List (String × String)) :
    Except ForgeError Client :=
  match Url.parse (Text.trimEnd '/' apiBase) with
  | .error e =>
    .error (.invalidArgument ("invalid API base URL '" ++ apiBase ++ "': " ++ e.message))
  | .ok base =>
    if !base.hasSegments then
      .error (.invalidArgument ("API base URL '" ++ apiBase ++ "' cannot carry a path"))
    else
      match auth.header? with
      | some (_, value) =>
        if isHeaderValue value then .ok ⟨base, auth, extraHeaders⟩
        else .error (.invalidArgument "token contains characters not allowed in a header")
      | none => .ok ⟨base, auth, extraHeaders⟩

/-- The base URL extended by segments. -/
def url (c : Client) (segments : List String) : Url := c.base.append segments

/-- The header for credentials that stand in the URL. -/
def basicHeader (u : Url) : Option (String × String) :=
  u.credentials?.map fun (user, password) =>
    let pair := user ++ ":" ++ password.getD ""
    ("authorization", "Basic " ++ String.ofList (Base64.encode (Text.Utf8.encode pair)))

/-- The request as it goes out. Credentials in the URL win over the token. -/
def message (c : Client) (q : Request) : Message :=
  let basic := basicHeader q.url
  let auth :=
    match basic, c.auth.header? with
    | some _, some ("authorization", _) => none
    | _, header => header
  let contentType := q.body.map fun _ => ("content-type", "application/json")
  { method := q.method
    url := q.url.withoutCredentials
    headers := [("user-agent", userAgent), ("accept", "application/json")] ++ c.extraHeaders ++
      auth.toList ++ basic.toList ++ contentType.toList
    body := q.body }

/-- For people to read. -/
def summary (c : Client) : String :=
  "RestClient \x7b base: " ++ Text.quoted c.base.text ++ " \x7d"

end Client
end ForgeChores
