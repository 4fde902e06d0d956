import ForgeChores.Http

/-!
# ForgeChores.Http.Paging

Lists that come in pages.

A page is asked for by its number and size. An `X-Next-Page` header names the next page, and a
blank one ends the list; without the header a page that is not full is the last one. A list that
goes on past `maxPage` is an error and never cut short.

A server may name any page as the next one, so the number of a page bounds nothing. What bounds
the loop is the exchange: a server that has nothing left to say answers with a failure.
-/

namespace ForgeChores
namespace Http

/-- How an API wants its pages named. -/
structure PageStyle where
  sizeParam : String
  size : Nat

/-- The last page that is asked for. -/
def maxPage : Nat := 100

def pageUrl (url : Url) (style : PageStyle) (page : Nat) : Url :=
  url.addQueries [(style.sizeParam, toString style.size), ("page", toString page)]

/-- Where the list goes on after a page. -/
inductive NextPage where
  | last
  | page (n : Nat)
deriving DecidableEq

/-- What follows page `page` with `count` items. A header that names no page ends the list. -/
def nextPage (style : PageStyle) (r : Response) (count page : Nat) : NextPage :=
  match r.header? "x-next-page" with
  | some value =>
    let next := Text.trim value
    if next = "" then .last
    else
      match Text.natural? Text.bound32 next with
      | some n => .page n
      | none => .last
  | none => if count < style.size then .last else .page (page + 1)

def tooManyPages (context : String) : ForgeError :=
  .provider context none
    ("more than " ++ toString maxPage ++ " pages of results; refusing to return a partial list")

/-- One page: its items and where the list goes on. -/
def onePage {α : Type} (context : String) (url : Url) (style : PageStyle)
    (items : Json.Decoder (List α)) (page : Nat) :
    Attempt Exchange ForgeError (List α × NextPage) := do
  let r ← send context (.get (pageUrl url style page))
  let batch ← .ofExcept (r.decode context items)
  return (batch, nextPage style r batch.length page)

/-- Page after page, at most `fuel` of them, onto what has been read so far. -/
def pagesFrom {α : Type} (context : String) (url : Url) (style : PageStyle)
    (items : Json.Decoder (List α)) :
    (fuel : Nat) → (page : Nat) → (soFar : List α) → Attempt Exchange ForgeError (List α)
  | 0, _, _ => .fail (tooManyPages context)
  | fuel + 1, page, soFar => do
    let (batch, next) ← onePage context url style items page
    match next with
    | .last => return soFar ++ batch
    | .page n =>
      if maxPage < n then .fail (tooManyPages context)
      else pagesFrom context url style items fuel n (soFar ++ batch)

/-- The whole list. After the last reply that is pending comes a failure, so there is one page
more than replies at most. -/
def pages {α : Type} (context : String) (url : Url) (style : PageStyle)
    (items : Json.Decoder (List α)) : Attempt Exchange ForgeError (List α) :=
  .fromState fun x => pagesFrom context url style items (x.pending.length + 1) 1 []

end Http
end ForgeChores
