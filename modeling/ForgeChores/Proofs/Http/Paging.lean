import ForgeChores.Http.Paging
import ForgeChores.Proofs.Http.Exchange
import ForgeChores.Proofs.Url.Query

/-!
# ForgeChores.Proofs.Http.Paging

Listings as functions of what the server replies.

`pagesFrom` counts down from the number of pending replies. `reading` is the same loop over the
replies themselves, one for each page, and so needs no count; it says which pages are asked for,
how long that takes and what comes of it. `pages_of_isHttp` shows that a listing does just that.

`pageRequest` spells out what is asked for a page. What follows a page is said by the `nextPage_of`
lemmas, one for each kind of header, and what a reply comes to by `readPage_of_success`. Statements
about listings are statements about `reading`.
-/

namespace ForgeChores

/-! ## Replies -/

namespace Exchange

variable {context : String} {q : Request}

/-- What every request comes to once the server has nothing left to say. -/
def exhaustedFailure (context : String) : ForgeError :=
  .provider context (some 418) "script exhausted"

theorem outcome_exhausted : outcome context q exhausted = (0, .error (exhaustedFailure context)) := by
  have hmessage : Failure.message 418 ((Response.text? ⟨418, [],
      some (Text.Utf8.encode "\x7b\"message\":\"script exhausted\"\x7d")⟩).getD "") =
      "script exhausted" := by decide +kernel
  show (0, Except.error (Failure.classify context 418 _)) = _
  rw [hmessage]
  rfl

end Exchange

namespace Http

variable {α : Type} {context : String} {url : Url} {style : PageStyle}
  {items : Json.Decoder (List α)}

/-! ## One page -/

section Next

variable {r : Response} {value : String} {count page n : Nat}

theorem nextPage_of_blank (h : r.header? "x-next-page" = some value)
    (hblank : Text.trim value = "") : nextPage style r count page = .last := by
  unfold nextPage
  rw [h]
  simp [hblank]

theorem nextPage_of_number (h : r.header? "x-next-page" = some value)
    (hn : Text.natural? Text.bound32 (Text.trim value) = some n) :
    nextPage style r count page = .page n := by
  have hnone : Text.natural? Text.bound32 "" = none := by decide
  have hne : Text.trim value ≠ "" := by
    intro hempty
    rw [hempty, hnone] at hn
    cases hn
  unfold nextPage
  rw [h]
  simp [hne, hn]

theorem nextPage_of_short (h : r.header? "x-next-page" = none) (hcount : count < style.size) :
    nextPage style r count page = .last := by
  unfold nextPage
  rw [h]
  simp [hcount]

theorem nextPage_of_full (h : r.header? "x-next-page" = none) (hcount : style.size ≤ count) :
    nextPage style r count page = .page (page + 1) := by
  unfold nextPage
  rw [h]
  simp [Nat.not_lt.mpr hcount]

end Next

/-- The request for a page: its size and its number stand behind the query of the list. -/
def pageRequest (url : Url) (style : PageStyle) (page : Nat) : Request :=
  .get (url.asking (String.ofList (Percent.formEncode style.sizeParam) ++ "=" ++
    toString style.size ++ "&page=" ++ toString page))

theorem get_pageUrl (url : Url) (style : PageStyle) (page : Nat) :
    .get (pageUrl url style page) = pageRequest url style page := by
  have hpage : Percent.formEncode "page" = "page".toList :=
    Percent.formEncode_of_safe (by decide)
  have hnumber : ∀ n : Nat, String.ofList (Percent.formEncode (toString n)) = toString n :=
    fun n => (congrArg String.ofList (Percent.formEncode_repr n)).trans String.ofList_toList
  have hname : "&page=" = "&" ++ (String.ofList "page".toList ++ "=") := by decide
  rw [pageUrl, Url.addQueries_two, hnumber, hnumber, hpage, pageRequest, hname]
  simp only [String.append_assoc]

/-- What the reply to the request for a page comes to: its items and where the list goes on. -/
def readPage (context : String) (url : Url) (style : PageStyle) (items : Json.Decoder (List α))
    (page : Nat) (reply : Reply) : Except ForgeError (List α × NextPage) := do
  let r ← (Exchange.outcome context (pageRequest url style page) reply).2
  let batch ← r.decode context items
  return (batch, nextPage style r batch.length page)

theorem isHttp_pageRequest (page : Nat) :
    (pageRequest url style page).url.isHttp = url.isHttp := rfl

theorem onePage_of_isHttp (hurl : url.isHttp = true) (page : Nat) (x : Exchange) :
    Task.ofAttempt (onePage context url style items page) x =
      ⟨readPage context url style items page (x.next (pageRequest url style page)).1,
        Exchange.waited (x.next (pageRequest url style page)).1,
        (x.next (pageRequest url style page)).2⟩ := by
  unfold onePage
  rw [get_pageUrl]
  refine send_bind ((isHttp_pageRequest page).trans hurl) fun r => ?_
  rw [Task.ofAttempt_bind, Task.ofAttempt_ofExcept]
  cases r.decode context items <;> rfl

theorem readPage_of_success {reply : Reply} {r : Response} {batch : List α} (page : Nat)
    (hr : reply.success? = some r) (hbatch : r.text?.bind items.read = some batch) :
    readPage context url style items page reply =
      .ok (batch, nextPage style r batch.length page) := by
  have hout : (Exchange.outcome context (pageRequest url style page) reply).2 = .ok r :=
    Exchange.outcome_eq_ok_iff.mpr hr
  have hdecode : r.decode context items = .ok batch := Response.decode_eq_ok_iff.mpr hbatch
  unfold readPage
  rw [hout]
  show (r.decode context items >>= _) = _
  rw [hdecode]
  rfl

theorem readPage_exhausted (page : Nat) :
    readPage context url style items page Exchange.exhausted =
      .error (Exchange.exhaustedFailure context) := by
  unfold readPage
  rw [Exchange.outcome_exhausted]
  rfl

/-! ## Page after page -/

/-- What a listing does: the pages it asks for, the time they take and what comes of them. -/
structure Reading (α : Type) where
  asked : List Nat
  elapsed : Nat
  result : Except ForgeError (List α)

/-- What a listing leaves behind between client and server. -/
def Reading.leave (r : Reading α) (url : Url) (style : PageStyle) (x : Exchange) :
    Timed Exchange (Except ForgeError (List α)) :=
  ⟨r.result, r.elapsed, ⟨x.pending.drop r.asked.length,
    x.sent ++ (r.asked.map (pageRequest url style)).toArray⟩⟩

theorem Reading.leave_one (page waited : Nat) (result : Except ForgeError (List α)) (x : Exchange) :
    (Reading.mk [page] waited result).leave url style x =
      ⟨result, waited, (x.next (pageRequest url style page)).2⟩ := by
  rw [Exchange.next_snd]
  simp [leave]

/-- One page before the rest of a listing. -/
def Reading.after (r : Reading α) (page waited : Nat) : Reading α :=
  ⟨page :: r.asked, waited + r.elapsed, r.result⟩

theorem Reading.leave_after (r : Reading α) (page waited : Nat) (x : Exchange) :
    (r.after page waited).leave url style x =
      ⟨(r.leave url style (x.next (pageRequest url style page)).2).result,
        waited + (r.leave url style (x.next (pageRequest url style page)).2).elapsed,
        (r.leave url style (x.next (pageRequest url style page)).2).state⟩ := by
  rw [Exchange.next_snd]
  simp [leave, after]

/-- The listing from `page` on, onto what has been read so far, one reply for each page. -/
def reading (context : String) (url : Url) (style : PageStyle) (items : Json.Decoder (List α)) :
    List Reply → (page : Nat) → (soFar : List α) → Reading α
  | [], page, _ => ⟨[page], 0, .error (Exchange.exhaustedFailure context)⟩
  | reply :: rest, page, soFar =>
    match readPage context url style items page reply with
    | .error e => ⟨[page], Exchange.waited reply, .error e⟩
    | .ok (batch, .last) => ⟨[page], Exchange.waited reply, .ok (soFar ++ batch)⟩
    | .ok (batch, .page n) =>
      if maxPage < n then ⟨[page], Exchange.waited reply, .error (tooManyPages context)⟩
      else (reading context url style items rest n (soFar ++ batch)).after page
        (Exchange.waited reply)

/-- With more rounds than replies the count never ends the loop. -/
theorem pagesFrom_reading (hurl : url.isHttp = true) :
    ∀ (fuel : Nat) (x : Exchange) (page : Nat) (soFar : List α), x.pending.length < fuel →
      Task.ofAttempt (pagesFrom context url style items fuel page soFar) x =
        (reading context url style items x.pending page soFar).leave url style x := by
  intro fuel
  induction fuel with
  | zero => intro x page soFar h; exact absurd h (Nat.not_lt_zero _)
  | succ fuel ih =>
    intro x page soFar h
    have hpage : Task.ofAttempt (onePage context url style items page) x = _ :=
      onePage_of_isHttp hurl page x
    rw [pagesFrom, Task.ofAttempt_bind]
    cases hp : x.pending with
    | nil =>
      have hnext : (x.next (pageRequest url style page)).1 = Exchange.exhausted := by
        simp [Exchange.next, hp]
      rw [hnext, readPage_exhausted] at hpage
      rw [Task.bind_of_error hpage, reading, Reading.leave_one]
      rfl
    | cons reply rest =>
      have hnext : x.next (pageRequest url style page) =
        (reply, ⟨rest, x.sent.push (pageRequest url style page)⟩) := Exchange.next_cons hp
      rw [hnext] at hpage
      rw [reading]
      cases hread : readPage context url style items page reply with
      | error e =>
        rw [hread] at hpage
        rw [Task.bind_of_error hpage, Reading.leave_one, hnext]
      | ok found =>
        obtain ⟨batch, next⟩ := found
        rw [hread] at hpage
        rw [Task.bind_of_ok hpage]
        cases next with
        | last => simp only [Reading.leave_one, hnext]; rfl
        | page n =>
          by_cases hn : maxPage < n
          · simp only [if_pos hn, Reading.leave_one, hnext]; rfl
          · -- a round that goes on has used up a reply, so the count stays ahead of them
            have hrest : rest.length < fuel := by
              rw [hp, List.length_cons] at h
              omega
            have hlater := ih ⟨rest, x.sent.push (pageRequest url style page)⟩ n (soFar ++ batch)
              hrest
            simp only [if_neg hn, Reading.leave_after, hnext, hlater]

/-- A listing is the reading of what the server replies, from the first page on. -/
theorem pages_of_isHttp (hurl : url.isHttp = true) (x : Exchange) :
    Task.ofAttempt (pages context url style items) x =
      (reading context url style items x.pending 1 []).leave url style x :=
  pagesFrom_reading hurl (x.pending.length + 1) x 1 [] (Nat.lt_succ_self _)

theorem pages_of_not_isHttp (hurl : ¬ url.isHttp = true) (x : Exchange) :
    ∃ e, Task.ofAttempt (pages context url style items) x = ⟨.error e, 0, x⟩ := by
  have hq : ¬ (pageRequest url style 1).url.isHttp = true := by
    rw [isHttp_pageRequest]; exact hurl
  have hpage : ∃ e, Task.ofAttempt (onePage context url style items 1) x = ⟨.error e, 0, x⟩ := by
    unfold onePage
    rw [get_pageUrl]
    exact send_bind_of_not_isHttp hq
  obtain ⟨e, he⟩ := hpage
  refine ⟨e, ?_⟩
  show Task.ofAttempt (pagesFrom context url style items (x.pending.length + 1) 1 []) x = _
  rw [pagesFrom, Task.ofAttempt_bind, Task.bind_of_error he]

end Http
end ForgeChores
