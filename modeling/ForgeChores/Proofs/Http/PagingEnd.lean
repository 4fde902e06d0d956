import ForgeChores.Proofs.Http.PagingBound
import ForgeChores.Proofs.Http.PagingComplete

/-!
# ForgeChores.Proofs.Http.PagingEnd

Whether a list that comes back is known to be the whole one.

A response announces the end of a list by a blank `X-Next-Page` header, or by a page that is not
full and no such header (`Response.EndsList`). A listing also ends at a header that it takes for
the end although it is none (`Response.Misread`): one that is no number of 32 bits, and one that
cannot be read, which counts as missing.

* `reading_ends`: a reading ends at the last reply it reads, and that reply decides what comes of it.
* `pages_announced_iff`: a list that comes back has had its end announced exactly if no such header
  was misread. Of the headers that name a page past `maxPage`, those of 32 bits are an error.
* `pages_truncated`: a header that names a page past 32 bits gives a list that goes on.
-/

namespace ForgeChores

/-! ## What a header says -/

namespace Response

/-- A header by its name in lower case, as it was sent. -/
def carried? (r : Response) (name : String) : Option String :=
  (r.headers.find? fun (n, _) => Text.lower n == name).map (·.2)

/-- Whether the value of a header can be read: printable ASCII and tabs. -/
def isReadable (value : String) : Bool :=
  value.toList.all fun c => c == '\t' || (0x20 ≤ c.toNat && c.toNat < 0x7F)

theorem header?_eq_filter (r : Response) (name : String) :
    r.header? name = (r.carried? name).filter isReadable := by
  unfold header? carried?
  cases r.headers.find? fun (n, _) => Text.lower n == name with
  | none => rfl
  | some found => rfl

/-- The response announces that the list ends with its page of `count` items. -/
def EndsList (style : Http.PageStyle) (r : Response) (count : Nat) : Prop :=
  match r.carried? "x-next-page" with
  | some value => Text.trim value = ""
  | none => count < style.size

/-- A page of `count` items with this header is taken for the last one: the header is no number of 32
bits, or it cannot be read and the page is not full. -/
def TakenForLast (style : Http.PageStyle) (value : String) (count : Nat) : Prop :=
  if isReadable value then Text.natural? Text.bound32 (Text.trim value) = none
  else count < style.size

instance (style : Http.PageStyle) (value : String) (count : Nat) :
    Decidable (TakenForLast style value count) :=
  inferInstanceAs (Decidable (if isReadable value then _ else _))

/-- The header is taken for the end of the list, although it is not blank. -/
def Misread (style : Http.PageStyle) (r : Response) (count : Nat) : Prop :=
  ∃ value, r.carried? "x-next-page" = some value ∧ Text.trim value ≠ "" ∧
    TakenForLast style value count

end Response

namespace Http

variable {α : Type} {context : String} {url : Url} {style : PageStyle}
  {items : Json.Decoder (List α)}

/-! ## The page that ends a list -/

section Last

variable {r : Response} {value : String} {count page : Nat}

theorem nextPage_eq_last_iff_of_text (h : r.header? "x-next-page" = some value) :
    nextPage style r count page = .last ↔
      Text.natural? Text.bound32 (Text.trim value) = none := by
  constructor
  · intro hlast
    cases hnumber : Text.natural? Text.bound32 (Text.trim value) with
    | none => rfl
    | some n =>
      rw [nextPage_of_number h hnumber] at hlast
      cases hlast
  · intro hnone
    unfold nextPage
    rw [h]
    simp [hnone]

theorem nextPage_eq_last_iff_of_none (h : r.header? "x-next-page" = none) :
    nextPage style r count page = .last ↔ count < style.size := by
  by_cases hshort : count < style.size
  · simp [nextPage_of_short h hshort, hshort]
  · simp [nextPage_of_full h (Nat.le_of_not_lt hshort), hshort]

theorem nextPage_eq_last_iff :
    nextPage style r count page = .last ↔
      match r.carried? "x-next-page" with
      | some value => Response.TakenForLast style value count
      | none => count < style.size := by
  have hheader : r.header? "x-next-page" = _ := r.header?_eq_filter "x-next-page"
  cases hcarried : r.carried? "x-next-page" with
  | none =>
    rw [hcarried, Option.filter_none] at hheader
    exact nextPage_eq_last_iff_of_none hheader
  | some value =>
    cases hread : Response.isReadable value with
    | true =>
      rw [hcarried, Option.filter_some_pos hread] at hheader
      simp only [Response.TakenForLast, hread, if_true]
      exact nextPage_eq_last_iff_of_text hheader
    | false =>
      rw [hcarried, Option.filter_some_neg hread] at hheader
      simp only [Response.TakenForLast, hread, Bool.false_eq_true, if_false]
      exact nextPage_eq_last_iff_of_none hheader

/-- A page that ends a listing announces the end, unless its header was misread. -/
theorem endsList_iff_of_last (h : nextPage style r count page = .last) :
    r.EndsList style count ↔ ¬ r.Misread style count := by
  rw [nextPage_eq_last_iff] at h
  unfold Response.EndsList Response.Misread
  cases hcarried : r.carried? "x-next-page" with
  | none =>
    rw [hcarried] at h
    simpa using h
  | some value =>
    rw [hcarried] at h
    simp [h]

theorem nextPage_of_misread (h : r.Misread style count) : nextPage style r count page = .last := by
  obtain ⟨value, hcarried, -, htaken⟩ := h
  rw [nextPage_eq_last_iff, hcarried]
  exact htaken

end Last

theorem readPage_ok_iff {reply : Reply} {page : Nat} {batch : List α} {next : NextPage} :
    readPage context url style items page reply = .ok (batch, next) ↔
      ∃ r, reply.success? = some r ∧ r.text?.bind items.read = some batch ∧
        nextPage style r batch.length page = next := by
  constructor
  · intro h
    obtain ⟨r, hout, hrest⟩ := except_bind_eq_ok.mp h
    obtain ⟨batch', hdecode, hpure⟩ := except_bind_eq_ok.mp hrest
    cases hpure
    exact ⟨r, Exchange.outcome_eq_ok_iff.mp hout, Response.decode_eq_ok_iff.mp hdecode, rfl⟩
  · rintro ⟨r, hr, hbatch, rfl⟩
    exact readPage_of_success page hr hbatch

/-! ## The end of a reading -/

theorem last_of_ending_ok {soFar list : List α} {page : Except ForgeError (List α × NextPage)}
    (h : ending context soFar page = some (.ok list)) : ∃ batch, page = .ok (batch, .last) := by
  match page with
  | .error e => cases h
  | .ok (batch, .last) => exact ⟨batch, rfl⟩
  | .ok (batch, .page n) =>
    simp only [ending] at h
    split at h <;> cases h

/-- Where a page leads on, the reading goes on with the rest of the replies. -/
theorem reading_of_ending_none {reply : Reply} {page : Nat} {soFar : List α} (rest : List Reply)
    (h : ending context soFar (readPage context url style items page reply) = none) :
    ∃ batch n, reading context url style items (reply :: rest) page soFar =
      (reading context url style items rest n (soFar ++ batch)).after page
        (Exchange.waited reply) := by
  rw [reading]
  cases hread : readPage context url style items page reply with
  | error e =>
    rw [hread] at h
    cases h
  | ok found =>
    obtain ⟨batch, next⟩ := found
    rw [hread] at h
    cases next with
    | last => cases h
    | page n =>
      by_cases hn : maxPage < n
      · simp [ending, hn] at h
      · exact ⟨batch, n, by simp only [if_neg hn]⟩

/-- A reading reads one reply for each page, and the last of them decides what comes of it, unless
the replies have run out. By induction on the replies. -/
theorem reading_ends (context : String) (url : Url) (style : PageStyle)
    (items : Json.Decoder (List α)) (replies : List Reply) (page : Nat) (soFar : List α) :
    ∃ earlier p,
      (reading context url style items replies page soFar).asked = earlier ++ [p] ∧
      ((replies[earlier.length]? = none ∧
          (reading context url style items replies page soFar).result =
            .error (Exchange.exhaustedFailure context)) ∨
        ∃ reply before, replies[earlier.length]? = some reply ∧
          ending context before (readPage context url style items p reply) =
            some (reading context url style items replies page soFar).result) := by
  induction replies generalizing page soFar with
  | nil => exact ⟨[], page, rfl, .inl ⟨rfl, rfl⟩⟩
  | cons reply rest ih =>
    cases hending : ending context soFar (readPage context url style items page reply) with
    | some result =>
      have hreading : reading context url style items (reply :: rest) page soFar =
        ⟨[page], Exchange.waited reply, result⟩ := reading_of_ending hending
      exact ⟨[], page, by rw [hreading]; rfl, .inr ⟨reply, soFar, rfl, by rw [hreading, hending]⟩⟩
    | none =>
      obtain ⟨batch, n, hreading⟩ := reading_of_ending_none rest hending
      obtain ⟨earlier, p, hasked, hend⟩ := ih n (soFar ++ batch)
      refine ⟨page :: earlier, p, ?_, ?_⟩
      · rw [hreading, Reading.after, hasked]
        rfl
      · rw [hreading, List.length_cons, List.getElem?_cons_succ]
        exact hend

/-! ## The last response -/

/-- The listing asks for `page` last and gets `r` with the items of `batch`. -/
def LastRead (context : String) (url : Url) (style : PageStyle) (items : Json.Decoder (List α))
    (x : Exchange) (page : Nat) (r : Response) (batch : List α) : Prop :=
  ∃ earlier reply, pagesAsked context url style items x = earlier ++ [page] ∧
    x.pending[earlier.length]? = some reply ∧ reply.success? = some r ∧
    r.text?.bind items.read = some batch

theorem result_pages (hurl : url.isHttp = true) (x : Exchange) :
    (Task.ofAttempt (pages context url style items) x).result =
      (reading context url style items x.pending 1 []).result := by
  rw [pages_of_isHttp hurl]
  rfl

/-- What comes of a listing is what the last response that it reads leads to. -/
theorem ending_of_lastRead {x : Exchange} {page : Nat} {r : Response} {batch : List α}
    (h : LastRead context url style items x page r batch) :
    ∃ before, ending context before (.ok (batch, nextPage style r batch.length page)) =
      some (Task.ofAttempt (pages context url style items) x).result := by
  obtain ⟨earlier, reply, hasked, hreply, hr, hbatch⟩ := h
  unfold pagesAsked at hasked
  by_cases hurl : url.isHttp = true
  · obtain ⟨earlier', p, hasked', hend⟩ :=
      reading_ends context url style items x.pending 1 []
    rw [if_pos hurl, hasked'] at hasked
    obtain ⟨rfl, hp⟩ := List.append_inj' hasked rfl
    cases hp
    rcases hend with ⟨hnone, -⟩ | ⟨reply', before, hreply', hending⟩
    · rw [hnone] at hreply
      cases hreply
    · rw [hreply] at hreply'
      cases hreply'
      rw [readPage_of_success page hr hbatch] at hending
      exact ⟨before, by rw [hending, result_pages hurl]⟩
  · rw [if_neg hurl] at hasked
    simp at hasked

/-- A list only comes back after a response that ends it. -/
theorem lastRead_of_ok {x : Exchange} {list : List α}
    (h : (Task.ofAttempt (pages context url style items) x).result = .ok list) :
    ∃ page r batch, LastRead context url style items x page r batch ∧
      nextPage style r batch.length page = .last := by
  by_cases hurl : url.isHttp = true
  · obtain ⟨earlier, page, hasked, hend⟩ :=
      reading_ends context url style items x.pending 1 []
    rw [result_pages hurl] at h
    rcases hend with ⟨-, herror⟩ | ⟨reply, before, hreply, hending⟩
    · rw [herror] at h
      cases h
    · rw [h] at hending
      obtain ⟨batch, hread⟩ := last_of_ending_ok hending
      obtain ⟨r, hr, hbatch, hlast⟩ := readPage_ok_iff.mp hread
      refine ⟨page, r, batch, ⟨earlier, reply, ?_, hreply, hr, hbatch⟩, hlast⟩
      rw [pagesAsked, if_pos hurl, hasked]
  · have hpages : ∃ e, Task.ofAttempt (pages context url style items) x = ⟨.error e, 0, x⟩ :=
      pages_of_not_isHttp hurl x
    obtain ⟨e, he⟩ := hpages
    rw [he] at h
    cases h

theorem LastRead.unique {x : Exchange} {page page' : Nat} {r r' : Response} {batch batch' : List α}
    (h : LastRead context url style items x page r batch)
    (h' : LastRead context url style items x page' r' batch') : r = r' ∧ batch = batch' := by
  obtain ⟨earlier, reply, hasked, hreply, hr, hbatch⟩ := h
  obtain ⟨earlier', reply', hasked', hreply', hr', hbatch'⟩ := h'
  rw [hasked] at hasked'
  obtain ⟨rfl, -⟩ := List.append_inj' hasked' rfl
  rw [hreply] at hreply'
  cases hreply'
  rw [hr] at hr'
  cases hr'
  rw [hbatch] at hbatch'
  cases hbatch'
  exact ⟨rfl, rfl⟩

/-! ## Whether the end was announced -/

/-- A list that comes back has had its end announced by the last response. -/
def Announced (context : String) (url : Url) (style : PageStyle) (items : Json.Decoder (List α))
    (x : Exchange) : Prop :=
  ∀ list, (Task.ofAttempt (pages context url style items) x).result = .ok list →
    ∃ page r batch, LastRead context url style items x page r batch ∧
      r.EndsList style batch.length

theorem announced_iff (x : Exchange) :
    Announced context url style items x ↔
      ¬ ∃ page r batch, LastRead context url style items x page r batch ∧
        r.Misread style batch.length := by
  constructor
  · rintro hannounced ⟨page, r, batch, hlast, hmisread⟩
    -- a header that is misread ends the listing with a list
    have hnext : nextPage style r batch.length page = .last := nextPage_of_misread hmisread
    obtain ⟨before, hending⟩ := ending_of_lastRead hlast
    rw [hnext] at hending
    obtain ⟨page', r', batch', hlast', hends⟩ := hannounced (before ++ batch)
      (Option.some.inj hending).symm
    obtain ⟨rfl, rfl⟩ := hlast.unique hlast'
    exact (endsList_iff_of_last hnext).mp hends hmisread
  · intro hnone list hlist
    obtain ⟨page, r, batch, hlast, hnext⟩ := lastRead_of_ok hlist
    exact ⟨page, r, batch, hlast,
      (endsList_iff_of_last hnext).mpr fun hmisread => hnone ⟨page, r, batch, hlast, hmisread⟩⟩

/-- A header that names a page past `maxPage` is an error, if it has 32 bits. -/
theorem result_of_beyond {x : Exchange} {page n : Nat} {r : Response} {batch : List α}
    {value : String} (hlast : LastRead context url style items x page r batch)
    (hheader : r.header? "x-next-page" = some value) (hvalue : Text.trim value = toString n)
    (hn : maxPage < n) :
    if n < Text.bound32 then
      (Task.ofAttempt (pages context url style items) x).result = .error (tooManyPages context)
    else
      ∃ before, (Task.ofAttempt (pages context url style items) x).result =
        .ok (before ++ batch) := by
  obtain ⟨before, hending⟩ := ending_of_lastRead hlast
  by_cases hbound : n < Text.bound32
  · have hnext : nextPage style r batch.length page = .page n :=
      nextPage_of_number hheader (by rw [hvalue]; exact Text.natural?_repr hbound)
    rw [if_pos hbound]
    simp only [hnext, ending, if_pos hn, Option.some.injEq] at hending
    exact hending.symm
  · have hnext : nextPage style r batch.length page = .last :=
      (nextPage_eq_last_iff_of_text hheader).mpr
        (by rw [hvalue]; exact Text.natural?_repr_of_le (Nat.le_of_not_lt hbound))
    rw [if_neg hbound]
    rw [hnext] at hending
    exact ⟨before, (Option.some.inj hending).symm⟩

/-- A list that comes back has had its end announced exactly if no header was misread. Of the
headers that name a page past `maxPage`, those of 32 bits are an error and all others give a
list. -/
theorem pages_announced_iff (context : String) (url : Url) (style : PageStyle)
    (items : Json.Decoder (List α)) (x : Exchange) :
    (Announced context url style items x ↔
      ¬ ∃ page r batch, LastRead context url style items x page r batch ∧
        r.Misread style batch.length) ∧
    ∀ page r batch value n, LastRead context url style items x page r batch →
      r.header? "x-next-page" = some value → Text.trim value = toString n → maxPage < n →
      if n < Text.bound32 then
        (Task.ofAttempt (pages context url style items) x).result = .error (tooManyPages context)
      else
        ∃ before, (Task.ofAttempt (pages context url style items) x).result =
          .ok (before ++ batch) := by
  refine ⟨announced_iff x, ?_⟩
  intro page r batch value n hlast hheader hvalue hn
  exact result_of_beyond hlast hheader hvalue hn

/-- A full page that names the first page past 32 bits. -/
def farPage : Reply := .prompt [("x-next-page", "4294967296")] "[1]"

/-- The page comes back as the whole list, and nothing has announced its end. -/
theorem pages_truncated :
    (Task.ofAttempt (pages "list items" standstillUrl ⟨"per_page", 1⟩ (.list .natural))
      ⟨[farPage], #[]⟩).result = .ok [1] ∧
    ¬ Announced "list items" standstillUrl ⟨"per_page", 1⟩ (.list .natural) ⟨[farPage], #[]⟩ := by
  have hbatch : (Response.success [("x-next-page", "4294967296")] "[1]").text?.bind
      (Json.Decoder.list .natural).read = some [1] := by decide +kernel
  have hmisread : (Response.success [("x-next-page", "4294967296")] "[1]").Misread
      ⟨"per_page", 1⟩ [1].length := by
    exact ⟨"4294967296", by decide, by decide, by decide⟩
  have hread : readPage "list items" standstillUrl ⟨"per_page", 1⟩ (.list .natural) 1 farPage =
      .ok ([1], .last) := by
    have hnext : nextPage ⟨"per_page", 1⟩ (.success [("x-next-page", "4294967296")] "[1]") 1 1 =
        .last := nextPage_of_misread hmisread
    exact readPage_ok_iff.mpr ⟨_, rfl, hbatch, hnext⟩
  have hreading : reading "list items" standstillUrl ⟨"per_page", 1⟩ (.list .natural) [farPage] 1 [] =
      ⟨[1], Exchange.waited farPage, .ok [1]⟩ := by
    rw [reading, hread]
    rfl
  have hlast : LastRead "list items" standstillUrl ⟨"per_page", 1⟩ (.list .natural)
      ⟨[farPage], #[]⟩ 1 (.success [("x-next-page", "4294967296")] "[1]") [1] := by
    refine ⟨[], farPage, ?_, rfl, rfl, hbatch⟩
    show (reading "list items" standstillUrl ⟨"per_page", 1⟩ (.list .natural) [farPage] 1 []).asked =
      [1]
    rw [hreading]
  constructor
  · rw [result_pages rfl, hreading]
  · intro hannounced
    exact (announced_iff _).mp hannounced ⟨1, _, [1], hlast, hmisread⟩

end Http
end ForgeChores
