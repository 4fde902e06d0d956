import ForgeChores.Proofs.Http.Paging
import ForgeChores.Proofs.Text.Number

/-!
# ForgeChores.Proofs.Http.PagingComplete

A listing gives the whole list, in order and with nothing twice, or an error.

Two kinds of servers are looked at. One serves a list in pages of the size it is asked for and says
nothing about where it goes on (`plainPage`); the other cuts it up as it likes and names the page
after each one, and none after the last (`linkedPage`). Either way the pages lead on one by one
until one of them ends the listing:

* `reading_run`: reading goes through pages that lead on and collects what is on them.
* `pages_of_ending`: the page after them, if it ends the listing, decides what comes of it.
* `pages_complete`: a list of `maxPage` pages at most comes back whole after just the requests it
  takes; a longer one is an error after `maxPage` requests, and a page that fails is an error too.
-/

namespace ForgeChores
namespace Http

variable {α : Type} {context : String} {url : Url} {style : PageStyle}
  {items : Json.Decoder (List α)}

/-! ## Pages that lead on -/

/-- The first `n` replies bring the pages from `first` on, each with its batch, and each leads on to
the page after it. -/
def LeadsOn (context : String) (url : Url) (style : PageStyle) (items : Json.Decoder (List α))
    (batch : Nat → List α) (replies : List Reply) (first n : Nat) : Prop :=
  ∀ k < n, ∃ reply, replies[k]? = some reply ∧
    readPage context url style items (first + k) reply =
      .ok (batch (first + k), .page (first + k + 1))

theorem reading_run {batch : Nat → List α} {replies : List Reply} {first n : Nat} (soFar : List α)
    (h : LeadsOn context url style items batch replies first n) (hmax : first + n ≤ maxPage) :
    (reading context url style items replies first soFar).asked =
      List.range' first n ++ (reading context url style items (replies.drop n) (first + n)
        (soFar ++ (List.range' first n).flatMap batch)).asked ∧
    (reading context url style items replies first soFar).result =
      (reading context url style items (replies.drop n) (first + n)
        (soFar ++ (List.range' first n).flatMap batch)).result := by
  induction n generalizing replies first soFar with
  | zero => simp
  | succ n ih =>
    -- the first page leads on to `first + 1`, from where the other `n` are read
    obtain ⟨reply, hreply, hread⟩ := h 0 (Nat.zero_lt_succ n)
    cases replies with
    | nil => cases hreply
    | cons reply' rest =>
      cases hreply
      have hrest : LeadsOn context url style items batch rest (first + 1) n := by
        intro k hk
        obtain ⟨reply', hreply', hread'⟩ := h (k + 1) (Nat.succ_lt_succ hk)
        have hpage : first + (k + 1) = first + 1 + k := by omega
        rw [hpage] at hread'
        exact ⟨reply', hreply', hread'⟩
      obtain ⟨hasked, hresult⟩ := ih (soFar ++ batch first) hrest (by omega)
      have hgoes : ¬ maxPage < first + 1 := by omega
      have hpage : first + 1 + n = first + (n + 1) := by omega
      rw [Nat.add_zero] at hread
      rw [hpage] at hasked hresult
      simp only [reading, hread, if_neg hgoes, Reading.after, hasked, hresult, List.range'_succ,
        List.flatMap_cons, List.append_assoc, List.cons_append, List.drop_succ_cons, and_self]

/-! ## The page that ends a listing -/

/-- What comes of a listing with a page that ends it. -/
def ending (context : String) (soFar : List α) :
    Except ForgeError (List α × NextPage) → Option (Except ForgeError (List α))
  | .error e => some (.error e)
  | .ok (batch, .last) => some (.ok (soFar ++ batch))
  | .ok (_, .page n) => if maxPage < n then some (.error (tooManyPages context)) else none

theorem reading_of_ending {reply : Reply} {rest : List Reply} {page : Nat} {soFar : List α}
    {result : Except ForgeError (List α)}
    (h : ending context soFar (readPage context url style items page reply) = some result) :
    reading context url style items (reply :: rest) page soFar =
      ⟨[page], Exchange.waited reply, result⟩ := by
  rw [reading]
  cases hread : readPage context url style items page reply with
  | error e =>
    rw [hread] at h
    cases h
    rfl
  | ok found =>
    obtain ⟨batch, next⟩ := found
    rw [hread] at h
    cases next with
    | last =>
      cases h
      rfl
    | page n =>
      by_cases hn : maxPage < n
      · simp only [ending, if_pos hn, Option.some.injEq] at h
        simp only [if_pos hn, h]
      · simp [ending, hn] at h

/-- The listing asks for the pages from 1 to `count`, in this order, and comes to `result`. -/
def ComesTo (context : String) (url : Url) (style : PageStyle) (items : Json.Decoder (List α))
    (x : Exchange) (count : Nat) (result : Except ForgeError (List α)) : Prop :=
  (Task.ofAttempt (pages context url style items) x).result = result ∧
  (Task.ofAttempt (pages context url style items) x).state.sent =
    x.sent ++ ((List.range' 1 count).map (pageRequest url style)).toArray

/-- Pages that lead on and then one that ends the listing. -/
theorem pages_of_ending {batch : Nat → List α} {n : Nat} {x : Exchange} {reply : Reply}
    {result : Except ForgeError (List α)} (hurl : url.isHttp = true)
    (hrun : LeadsOn context url style items batch x.pending 1 n) (hn : n < maxPage)
    (hreply : x.pending[n]? = some reply)
    (hending : ending context ((List.range' 1 n).flatMap batch)
      (readPage context url style items (n + 1) reply) = some result) :
    ComesTo context url style items x (n + 1) result := by
  obtain ⟨hasked, hresult⟩ := reading_run [] hrun (by omega)
  have hdrop : x.pending.drop n = reply :: x.pending.drop (n + 1) := by
    obtain ⟨hlt, hget⟩ := List.getElem?_eq_some_iff.mp hreply
    rw [List.drop_eq_getElem_cons hlt, hget]
  rw [List.nil_append, Nat.add_comm 1 n, hdrop, reading_of_ending hending] at hasked hresult
  have hpages : (Task.ofAttempt (pages context url style items) x) = _ := pages_of_isHttp hurl x
  unfold ComesTo
  rw [hpages, List.range'_1_concat, Nat.add_comm 1 n]
  exact ⟨hresult, by rw [Reading.leave, hasked]⟩

theorem pages_of_last {batch : Nat → List α} {n : Nat} {x : Exchange} {reply : Reply}
    (hurl : url.isHttp = true) (hrun : LeadsOn context url style items batch x.pending 1 n)
    (hn : n < maxPage) (hreply : x.pending[n]? = some reply)
    (hlast : readPage context url style items (n + 1) reply = .ok (batch (n + 1), .last)) :
    ComesTo context url style items x (n + 1) (.ok ((List.range' 1 (n + 1)).flatMap batch)) := by
  refine pages_of_ending hurl hrun hn hreply ?_
  rw [hlast, ending, List.range'_1_concat, List.flatMap_append, Nat.add_comm 1 n]
  simp

theorem pages_of_error {batch : Nat → List α} {n : Nat} {x : Exchange} {reply : Reply}
    {e : ForgeError} (hurl : url.isHttp = true)
    (hrun : LeadsOn context url style items batch x.pending 1 n)
    (hn : n < maxPage) (hreply : x.pending[n]? = some reply)
    (herror : readPage context url style items (n + 1) reply = .error e) :
    ComesTo context url style items x (n + 1) (.error e) := by
  refine pages_of_ending hurl hrun hn hreply ?_
  rw [herror, ending]

/-- When page `maxPage` leads on too, nothing of the list is given. -/
theorem pages_of_beyond {batch : Nat → List α} {x : Exchange} (hurl : url.isHttp = true)
    (hrun : LeadsOn context url style items batch x.pending 1 maxPage) :
    ComesTo context url style items x maxPage (.error (tooManyPages context)) := by
  obtain ⟨n, hn⟩ : ∃ n, maxPage = n + 1 := ⟨99, rfl⟩
  have hlast : n < maxPage := by omega
  have hbefore : LeadsOn context url style items batch x.pending 1 n :=
    fun k hk => hrun k (Nat.lt_trans hk hlast)
  obtain ⟨reply, hreply, hread⟩ := hrun n hlast
  have hbeyond : maxPage < 1 + n + 1 := by omega
  rw [hn]
  refine pages_of_ending hurl hbefore hlast hreply ?_
  rw [Nat.add_comm n 1, hread, ending, if_pos hbeyond]

/-! ## Servers -/

/-- What is on one page of a list and the header that says where the list goes on. -/
structure Page (α : Type) where
  items : List α
  next : Option String

/-- The reply is a success with the items and the header of a page. -/
def Page.InReply (p : Page α) (items : Json.Decoder (List α)) (reply : Reply) : Prop :=
  ∃ r, reply.success? = some r ∧ r.text?.bind items.read = some p.items ∧
    r.header? "x-next-page" = p.next

/-- The first `count` replies bring the first `count` pages. -/
def Serves (items : Json.Decoder (List α)) (page : Nat → Page α) (count : Nat)
    (replies : List Reply) : Prop :=
  ∀ k < count, ∃ reply, replies[k]? = some reply ∧ (page (k + 1)).InReply items reply

/-- A page of a list in pages of `size`, without a word on where the list goes on. -/
def plainPage (l : List α) (size page : Nat) : Page α :=
  ⟨(l.drop ((page - 1) * size)).take size, none⟩

/-- A page of a list in parts, with the number of the page after it or a blank after the last. -/
def linkedPage (parts : List (List α)) (page : Nat) : Page α :=
  ⟨parts[page - 1]?.getD [], some (if page < parts.length then toString (page + 1) else "")⟩

theorem readPage_of_page {p : Page α} {reply : Reply} {page : Nat} {next : NextPage}
    (hreply : p.InReply items reply)
    (hnext : ∀ r : Response, r.header? "x-next-page" = p.next →
      nextPage style r p.items.length page = next) :
    readPage context url style items page reply = .ok (p.items, next) := by
  obtain ⟨r, hr, hbatch, hheader⟩ := hreply
  rw [readPage_of_success page hr hbatch, hnext r hheader]

theorem readPage_plain_full {l : List α} {k : Nat} {reply : Reply}
    (hreply : (plainPage l style.size (k + 1)).InReply items reply)
    (hfull : (k + 1) * style.size ≤ l.length) :
    readPage context url style items (k + 1) reply =
      .ok ((plainPage l style.size (k + 1)).items, .page (k + 2)) := by
  refine readPage_of_page hreply fun r hr => nextPage_of_full hr ?_
  rw [Nat.succ_mul] at hfull
  simp only [plainPage, Nat.add_sub_cancel, List.length_take, List.length_drop]
  omega

theorem readPage_plain_short {l : List α} {k : Nat} {reply : Reply}
    (hsize : 1 ≤ style.size) (hreply : (plainPage l style.size (k + 1)).InReply items reply)
    (hshort : l.length < (k + 1) * style.size) :
    readPage context url style items (k + 1) reply =
      .ok ((plainPage l style.size (k + 1)).items, .last) := by
  refine readPage_of_page hreply fun r hr => nextPage_of_short hr ?_
  rw [Nat.succ_mul] at hshort
  simp only [plainPage, Nat.add_sub_cancel, List.length_take, List.length_drop]
  omega

theorem readPage_linked_inner {parts : List (List α)} {k : Nat} {reply : Reply}
    (hreply : (linkedPage parts (k + 1)).InReply items reply) (hk : k + 1 < parts.length)
    (hbound : k + 2 < Text.bound32) :
    readPage context url style items (k + 1) reply =
      .ok ((linkedPage parts (k + 1)).items, .page (k + 2)) := by
  refine readPage_of_page hreply fun r hr => nextPage_of_number hr ?_
  rw [if_pos hk]
  show Text.natural? Text.bound32 (Text.trim (k + 2).repr) = some (k + 2)
  rw [Text.trim_repr, Text.natural?_repr hbound]

theorem readPage_linked_last {parts : List (List α)} {k : Nat} {reply : Reply}
    (hreply : (linkedPage parts (k + 1)).InReply items reply) (hk : parts.length ≤ k + 1) :
    readPage context url style items (k + 1) reply =
      .ok ((linkedPage parts (k + 1)).items, .last) := by
  refine readPage_of_page hreply fun r hr => nextPage_of_blank hr ?_
  rw [if_neg (Nat.not_lt.mpr hk)]
  decide

/-- The pages before the end of a list are full and lead on. -/
theorem leadsOn_plain {l : List α} {n : Nat} {replies : List Reply} (hn : n * style.size ≤ l.length)
    (hserves : Serves items (plainPage l style.size) n replies) :
    LeadsOn context url style items (fun page => (plainPage l style.size page).items) replies 1
      n := by
  intro k hk
  obtain ⟨reply, hreply, hpage⟩ := hserves k hk
  have hfull : (k + 1) * style.size ≤ l.length :=
    Nat.le_trans (Nat.mul_le_mul_right _ (Nat.succ_le_of_lt hk)) hn
  rw [Nat.add_comm 1 k]
  exact ⟨reply, hreply, readPage_plain_full hpage hfull⟩

theorem leadsOn_linked {parts : List (List α)} {n : Nat} {replies : List Reply}
    (hn : n < parts.length) (hmax : n ≤ maxPage)
    (hserves : Serves items (linkedPage parts) n replies) :
    LeadsOn context url style items (fun page => (linkedPage parts page).items) replies 1 n := by
  intro k hk
  obtain ⟨reply, hreply, hpage⟩ := hserves k hk
  have hbound : maxPage + 1 < Text.bound32 := by decide
  rw [Nat.add_comm 1 k]
  exact ⟨reply, hreply, readPage_linked_inner hpage (by omega) (by omega)⟩

/-! ## What is on the pages -/

theorem flatMap_plainPage (l : List α) (size n : Nat) :
    ((List.range' 1 n).flatMap fun page => (plainPage l size page).items) = l.take (n * size) := by
  induction n with
  | zero => simp
  | succ n ih =>
    rw [List.range'_1_concat, List.flatMap_append, ih, Nat.succ_mul, List.take_add]
    simp [plainPage, Nat.add_comm 1 n]

theorem flatMap_linkedPage (parts : List (List α)) (n : Nat) :
    ((List.range' 1 n).flatMap fun page => (linkedPage parts page).items) =
      (parts.take n).flatten := by
  induction n with
  | zero => simp
  | succ n ih =>
    rw [List.range'_1_concat, List.flatMap_append, ih, List.take_add_one, List.flatten_append]
    cases hpart : parts[n]? <;> simp [linkedPage, Nat.add_comm 1 n, hpart]

/-! ## Whole lists -/

theorem pages_plain_of_lt {l : List α} {x : Exchange} (hurl : url.isHttp = true)
    (hsize : 1 ≤ style.size) (hl : l.length < maxPage * style.size)
    (hserves : Serves items (plainPage l style.size) (l.length / style.size + 1) x.pending) :
    ComesTo context url style items x (l.length / style.size + 1) (.ok l) := by
  have hfull : l.length / style.size * style.size ≤ l.length := Nat.div_mul_le_self _ _
  have hshort : l.length < (l.length / style.size + 1) * style.size := by
    rw [Nat.mul_comm]
    exact Nat.lt_mul_div_succ _ hsize
  have hn : l.length / style.size < maxPage := (Nat.div_lt_iff_lt_mul hsize).mpr hl
  have hrun : LeadsOn context url style items (fun page => (plainPage l style.size page).items)
    x.pending 1 (l.length / style.size) :=
    leadsOn_plain hfull fun k hk => hserves k (Nat.lt_succ_of_lt hk)
  obtain ⟨reply, hreply, hpage⟩ := hserves (l.length / style.size) (Nat.lt_succ_self _)
  have hwhole := pages_of_last hurl hrun hn hreply (readPage_plain_short hsize hpage hshort)
  rw [flatMap_plainPage, List.take_of_length_le (Nat.le_of_lt hshort)] at hwhole
  exact hwhole

theorem pages_linked_of_le {parts : List (List α)} {x : Exchange} (hurl : url.isHttp = true)
    (hparts : parts ≠ []) (hmax : parts.length ≤ maxPage)
    (hserves : Serves items (linkedPage parts) parts.length x.pending) :
    ComesTo context url style items x parts.length (.ok parts.flatten) := by
  obtain ⟨n, hn⟩ : ∃ n, parts.length = n + 1 :=
    Nat.exists_eq_add_one.mpr (List.length_pos_iff.mpr hparts)
  rw [hn] at hmax hserves
  have hrun : LeadsOn context url style items (fun page => (linkedPage parts page).items)
    x.pending 1 n :=
    leadsOn_linked (by omega) (by omega) fun k hk => hserves k (Nat.lt_succ_of_lt hk)
  obtain ⟨reply, hreply, hpage⟩ := hserves n (Nat.lt_succ_self n)
  have hwhole := pages_of_last hurl hrun hmax hreply (readPage_linked_last hpage (by omega))
  rw [flatMap_linkedPage, ← hn, List.take_length] at hwhole
  exact hwhole

/-- A listing gives the whole list after just the requests it takes, or an error.

A server without the header serves `l` in pages of the size asked for, one with it serves the
`parts` of a list page by page. Lists that go on past `maxPage` are an error after `maxPage`
requests. A page that fails is asked for if the pages before it are brought, and its error is what
the listing comes to. -/
theorem pages_complete (context : String) (url : Url) (style : PageStyle)
    (items : Json.Decoder (List α)) (x : Exchange) (hurl : url.isHttp = true)
    (hsize : 1 ≤ style.size) :
    (∀ l : List α,
      (l.length < maxPage * style.size →
        Serves items (plainPage l style.size) (l.length / style.size + 1) x.pending →
        ComesTo context url style items x (l.length / style.size + 1) (.ok l)) ∧
      (maxPage * style.size ≤ l.length →
        Serves items (plainPage l style.size) maxPage x.pending →
        ComesTo context url style items x maxPage (.error (tooManyPages context)))) ∧
    (∀ parts : List (List α), parts ≠ [] →
      (parts.length ≤ maxPage → Serves items (linkedPage parts) parts.length x.pending →
        ComesTo context url style items x parts.length (.ok parts.flatten)) ∧
      (maxPage < parts.length → Serves items (linkedPage parts) maxPage x.pending →
        ComesTo context url style items x maxPage (.error (tooManyPages context)))) ∧
    ∀ (n : Nat) (reply : Reply) (e : ForgeError), n < maxPage → x.pending[n]? = some reply →
      readPage context url style items (n + 1) reply = .error e →
      ((∃ l : List α, n * style.size ≤ l.length ∧
          Serves items (plainPage l style.size) n x.pending) ∨
        ∃ parts : List (List α), n < parts.length ∧
          Serves items (linkedPage parts) n x.pending) →
      ComesTo context url style items x (n + 1) (.error e) := by
  refine ⟨fun l => ⟨fun hl hserves => ?_, fun hl hserves => ?_⟩,
    fun parts hparts => ⟨fun hmax hserves => ?_, fun hmax hserves => ?_⟩,
    fun n reply e hn hreply herror hbefore => ?_⟩
  · exact pages_plain_of_lt hurl hsize hl hserves
  · exact pages_of_beyond hurl (leadsOn_plain hl hserves)
  · exact pages_linked_of_le hurl hparts hmax hserves
  · exact pages_of_beyond hurl (leadsOn_linked hmax (Nat.le_refl _) hserves)
  · rcases hbefore with ⟨l, hl, hserves⟩ | ⟨parts, hparts, hserves⟩
    · exact pages_of_error hurl (leadsOn_plain hl hserves) hn hreply herror
    · exact pages_of_error hurl (leadsOn_linked hparts (Nat.le_of_lt hn) hserves) hn hreply herror

/-! ## Some servers -/

/-- A list with a query of its own. -/
def itemsUrl : Url :=
  ⟨"https", some ⟨"", none, "h", none⟩, .segments ["items"], some "state=open", none⟩

/-- Three numbers in pages of two. -/
def twoPages : Exchange := ⟨[.prompt [] "[1,2]", .prompt [] "[3]"], #[]⟩

/-- As many numbers as `maxPage` pages of one hold. -/
def fullPages : Exchange := ⟨List.replicate 100 (.prompt [] "[0]"), #[]⟩

/-- Three numbers in parts of which one is empty. -/
def threeParts : Exchange :=
  ⟨[.prompt [("x-next-page", "2")] "[1]", .prompt [("x-next-page", "3")] "[]",
    .prompt [("x-next-page", "")] "[2,3]"], #[]⟩

/-- Parts that go on past `maxPage`. -/
def manyParts : Exchange :=
  ⟨(List.range 100).map fun k => .prompt [("x-next-page", toString (k + 2))] "[]", #[]⟩

/-- A page and then no answer. -/
def brokenOff : Exchange := ⟨[.prompt [] "[1,2]", ⟨0, none⟩], #[]⟩

theorem inReply_prompt {p : Page α} {headers : List (String × String)} {body : String}
    (hbody : (Response.success headers body).text?.bind items.read = some p.items)
    (hnext : (Response.success headers body).header? "x-next-page" = p.next) :
    p.InReply items (.prompt headers body) :=
  ⟨_, Reply.success?_prompt headers body, hbody, hnext⟩

theorem serves_twoPages :
    Serves (Json.Decoder.list .natural) (plainPage [1, 2, 3] 2) 2 twoPages.pending := by
  intro k hk
  match k, hk with
  | 0, _ => exact ⟨_, rfl, inReply_prompt (by decide +kernel) rfl⟩
  | 1, _ => exact ⟨_, rfl, inReply_prompt (by decide +kernel) rfl⟩

theorem serves_fullPages :
    Serves (Json.Decoder.list .natural) (plainPage (List.replicate 100 0) 1) 100
      fullPages.pending := by
  intro k hk
  have hone : min 1 (100 - k) = 1 := by omega
  have hitems : (plainPage (List.replicate 100 0) 1 (k + 1)).items = [0] := by
    simp only [plainPage, Nat.add_sub_cancel, Nat.mul_one, List.drop_replicate,
      List.take_replicate, hone, List.replicate_one]
  refine ⟨_, List.getElem?_replicate_of_lt hk, inReply_prompt ?_ rfl⟩
  rw [hitems]
  decide +kernel

theorem serves_threeParts :
    Serves (Json.Decoder.list .natural) (linkedPage [[1], [], [2, 3]]) 3 threeParts.pending := by
  intro k hk
  match k, hk with
  | 0, _ => exact ⟨_, rfl, inReply_prompt (by decide +kernel) (by decide)⟩
  | 1, _ => exact ⟨_, rfl, inReply_prompt (by decide +kernel) (by decide)⟩
  | 2, _ => exact ⟨_, rfl, inReply_prompt (by decide +kernel) (by decide)⟩

theorem serves_manyParts :
    Serves (Json.Decoder.list .natural) (linkedPage (List.replicate 101 [])) 100
      manyParts.pending := by
  intro k hk
  have hpart : k < 101 := by omega
  have hinner : k + 1 < 101 := by omega
  have hitems : (linkedPage (List.replicate 101 ([] : List Nat)) (k + 1)).items = [] := by
    simp only [linkedPage, Nat.add_sub_cancel, List.getElem?_replicate, if_pos hpart,
      Option.getD_some]
  have hnext : (linkedPage (List.replicate 101 ([] : List Nat)) (k + 1)).next =
      some (toString (k + 2)) := by
    simp only [linkedPage, List.length_replicate, if_pos hinner]
  have hbody : (Response.success [] "[]").text?.bind (Json.Decoder.list .natural).read =
    some [] := by decide +kernel
  have hheader : ∀ k < 100, (Response.success [("x-next-page", toString (k + 2))] "[]").header?
    "x-next-page" = some (toString (k + 2)) := by decide +kernel
  refine ⟨.prompt [("x-next-page", toString (k + 2))] "[]", ?_, inReply_prompt ?_ ?_⟩
  · simp [manyParts, hk]
  · rw [hitems]
    exact hbody
  · rw [hnext, hheader k hk]

theorem serves_brokenOff :
    Serves (Json.Decoder.list .natural) (plainPage [1, 2] 2) 1 brokenOff.pending := by
  intro k hk
  match k, hk with
  | 0, _ => exact ⟨_, rfl, inReply_prompt (by decide +kernel) rfl⟩

/-- Every case of a listing comes up. -/
theorem pages_complete_met :
    ComesTo "list items" itemsUrl ⟨"per_page", 2⟩ (.list .natural) twoPages 2 (.ok [1, 2, 3]) ∧
    ComesTo "list items" itemsUrl ⟨"per_page", 1⟩ (.list .natural) fullPages 100
      (.error (tooManyPages "list items")) ∧
    ComesTo "list items" itemsUrl ⟨"per_page", 2⟩ (.list .natural) threeParts 3
      (.ok [1, 2, 3]) ∧
    ComesTo "list items" itemsUrl ⟨"per_page", 2⟩ (.list .natural) manyParts 100
      (.error (tooManyPages "list items")) ∧
    (∃ e, ComesTo "list items" itemsUrl ⟨"per_page", 2⟩ (.list .natural) brokenOff 2 (.error e)) ∧
    (pageRequest itemsUrl ⟨"per_page", 2⟩ 12).shown =
      (.get, "https://h/items?state=open&per_page=2&page=12", none) := by
  have hbroken : ∃ e, readPage "list items" itemsUrl ⟨"per_page", 2⟩ (.list .natural) 2
      ⟨0, none⟩ = .error e := ⟨_, rfl⟩
  obtain ⟨e, he⟩ := hbroken
  refine ⟨?_, ?_, ?_, ?_, ⟨e, ?_⟩, by decide +kernel⟩
  · exact ((pages_complete "list items" itemsUrl ⟨"per_page", 2⟩ (.list .natural) twoPages rfl
      (by decide)).1 [1, 2, 3]).1 (by decide) serves_twoPages
  · exact ((pages_complete "list items" itemsUrl ⟨"per_page", 1⟩ (.list .natural) fullPages rfl
      (by decide)).1 (List.replicate 100 0)).2 (by decide) serves_fullPages
  · exact ((pages_complete "list items" itemsUrl ⟨"per_page", 2⟩ (.list .natural) threeParts rfl
      (by decide)).2.1 [[1], [], [2, 3]] (by decide)).1 (by decide) serves_threeParts
  · exact ((pages_complete "list items" itemsUrl ⟨"per_page", 2⟩ (.list .natural) manyParts rfl
      (by decide)).2.1 (List.replicate 101 []) (by decide)).2 (by decide) serves_manyParts
  · exact (pages_complete "list items" itemsUrl ⟨"per_page", 2⟩ (.list .natural) brokenOff rfl
      (by decide)).2.2 1 ⟨0, none⟩ e (by decide) rfl he
      (Or.inl ⟨[1, 2], by decide, serves_brokenOff⟩)

end Http
end ForgeChores
