import ForgeChores.ForgeError
import ForgeChores.Http.Failure
import ForgeChores.Json.Record
import ForgeChores.Url

/-!
# ForgeChores.Http

Requests, answers and the exchange of the two.

An `Exchange` holds what the server is going to answer, in order, and what it has been asked so
far. Sending a request takes the next answer and the time that answer takes; a server that has
nothing left to say answers 418 at once. A request that gets no answer, or none within
`requestTimeout`, fails as transient; an answer other than 2xx fails as its status and message say.
-/

namespace ForgeChores

inductive Method where
  | get
  | post
  | put
  | patch
  | delete
deriving DecidableEq

def Method.text : Method → String
  | .get => "GET"
  | .post => "POST"
  | .put => "PUT"
  | .patch => "PATCH"
  | .delete => "DELETE"

/-- What is asked for. Headers that every request carries are added when it goes out. -/
structure Request where
  method : Method
  url : Url
  body : Option Json

namespace Request

def get (url : Url) : Request := ⟨.get, url, none⟩
def post (url : Url) (body : Option Json) : Request := ⟨.post, url, body⟩
def put (url : Url) (body : Json) : Request := ⟨.put, url, some body⟩
def patch (url : Url) (body : Json) : Request := ⟨.patch, url, some body⟩
def delete (url : Url) : Request := ⟨.delete, url, none⟩

/-- The URL as errors show it. -/
def shownUrl (q : Request) : String := q.url.withoutCredentials.text

end Request

/-- An answer. The body is missing if it broke off. -/
structure Response where
  status : Nat
  headers : List (String × String)
  body : Option Text.Bytes

namespace Response

/-- The status of success. -/
def isSuccess (r : Response) : Bool := 200 ≤ r.status && r.status ≤ 299

/-- The body as text, without a byte order mark. -/
def text? (r : Response) : Option String :=
  r.body.map fun bytes =>
    Text.Utf8.decodeLossy <|
      match bytes with
      | 0xEF :: 0xBB :: 0xBF :: rest => rest
      | bytes => bytes

/-- A header by its name in lower case, if it is printable ASCII. -/
def header? (r : Response) (name : String) : Option String := do
  let (_, value) ← r.headers.find? fun (n, _) => Text.lower n == name
  if value.toList.all fun c => c == '\t' || (0x20 ≤ c.toNat && c.toNat < 0x7F) then some value
  else none

/-- The failure that an answer stands for. A body that broke off counts as empty. -/
def failure (context : String) (r : Response) : ForgeError :=
  Failure.classify context r.status (Failure.message r.status (r.text?.getD ""))

/-- Reads the body of a successful answer. -/
def decode {α : Type} (context : String) (d : Json.Decoder α) (r : Response) :
    Except ForgeError α :=
  match r.text? with
  | none => .error (.provider context none "error decoding response body")
  | some text =>
    match d.read text with
    | some a => .ok a
    | none =>
      .error (.provider context (some r.status)
        "unexpected response body: not the JSON that was asked for")

end Response

/-- What the server does with one request. -/
structure Reply where
  delay : Nat
  answer : Option Response

/-- Everything between client and server. -/
structure Exchange where
  pending : List Reply
  sent : Array Request

namespace Exchange

/-- How long a request may take. -/
def requestTimeout : Nat := Duration.seconds 60

/-- The answer of a server that has nothing left to say. -/
def exhausted : Reply :=
  ⟨0, some ⟨418, [], some (Text.Utf8.encode "\x7b\"message\":\"script exhausted\"\x7d")⟩⟩

/-- Takes the next reply and remembers the request. -/
def next (x : Exchange) (q : Request) : Reply × Exchange :=
  match x.pending with
  | [] => (exhausted, ⟨[], x.sent.push q⟩)
  | reply :: rest => (reply, ⟨rest, x.sent.push q⟩)

/-- How long a reply takes and what comes of it. -/
def outcome (context : String) (q : Request) (reply : Reply) : Nat × Except ForgeError Response :=
  let unreachable : ForgeError :=
    .transient context ("error sending request for url (" ++ q.shownUrl ++ ")")
  if requestTimeout ≤ reply.delay then (requestTimeout, .error unreachable)
  else
    match reply.answer with
    | none => (reply.delay, .error unreachable)
    | some r => (reply.delay, if r.isSuccess then .ok r else .error (r.failure context))

end Exchange

namespace Http

/-- Sends a request and takes its answer if it is a success. -/
def send (context : String) (q : Request) : Attempt Exchange ForgeError Response :=
  if q.url.isHttp then
    .step fun x =>
      let (reply, x) := x.next q
      let (time, result) := Exchange.outcome context q reply
      (time, result, x)
  else
    .fail (.provider context none ("builder error for url (" ++ q.shownUrl ++ ")"))

/-- Sends a request and leaves its body aside. -/
def sendEmpty (context : String) (q : Request) : Attempt Exchange ForgeError Unit := do
  let _ ← send context q

/-- Sends a request and reads its body. -/
def sendJson {α : Type} (context : String) (d : Json.Decoder α) (q : Request) :
    Attempt Exchange ForgeError α := do
  let r ← send context q
  .ofExcept (r.decode context d)

/-- Sends a request and tells whether what it names is there: `false` if it is not found. -/
def isThere (context : String) (q : Request) : Attempt Exchange ForgeError Bool := do
  match ← (sendEmpty context q).caught with
  | .ok _ => return true
  | .error e => if e.isNotFound then return false else .fail e

end Http
end ForgeChores
