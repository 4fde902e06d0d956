import ForgeChores.Proofs.Http.Asking
import ForgeChores.Proofs.Http.Paging

/-!
# ForgeChores.Proofs.Http.PagingBound

How many pages a listing asks for.

The only guard compares the number of the next page with `maxPage`, and that number is the
server's. So no page past `maxPage` is ever asked for (`asked_le`), but a server that leads back is
followed for as long as it replies (`pages_unbounded`).

* `state_pages`: the requests of a listing are those for the pages it asks for.
* `pages_bounded_iff`: a listing asks for `maxPage` pages at most, and for none twice, exactly if
  no reply leads back to a page that was asked for and some page up to `maxPage` is left out. There
  are `maxPage + 1` such pages, since a server may name page 0.
-/

namespace ForgeChores
namespace Http

variable {α : Type} {context : String} {url : Url} {style : PageStyle}
  {items : Json.Decoder (List α)}

/-! ## The pages of a reading -/

theorem asked_eq_cons (replies : List Reply) (page : Nat) (soFar : List α) :
    ∃ later, (reading context url style items replies page soFar).asked = page :: later := by
  cases replies with
  | nil => exact ⟨[], rfl⟩
  | cons reply rest =>
    rw [reading]
    split
    · exact ⟨[], rfl⟩
    · exact ⟨[], rfl⟩
    · split
      · exact ⟨[], rfl⟩
      · exact ⟨_, rfl⟩

theorem asked_le {replies : List Reply} {page : Nat} {soFar : List α} (hpage : page ≤ maxPage) :
    ∀ p ∈ (reading context url style items replies page soFar).asked, p ≤ maxPage := by
  induction replies generalizing page soFar with
  | nil => simpa [reading] using hpage
  | cons reply rest ih =>
    rw [reading]
    split
    · simpa using hpage
    · simpa using hpage
    · split
      · simpa using hpage
      · rename_i hn
        intro p hp
        rcases List.mem_cons.mp hp with rfl | hp
        · exact hpage
        · exact ih (Nat.le_of_not_lt hn) p hp

/-- With no page twice, `maxPage` pages at most are asked for exactly if one is left out. -/
theorem length_asked_le_iff {replies : List Reply} {page : Nat} {soFar : List α}
    (hpage : page ≤ maxPage)
    (hnodup : (reading context url style items replies page soFar).asked.Nodup) :
    (reading context url style items replies page soFar).asked.length ≤ maxPage ↔
      ∃ p ≤ maxPage, p ∉ (reading context url style items replies page soFar).asked := by
  constructor
  · intro hlength
    refine Classical.byContradiction fun hnone => ?_
    -- otherwise all `maxPage + 1` pages are among them
    have hsubset : List.range (maxPage + 1) ⊆
        (reading context url style items replies page soFar).asked := by
      intro p hp
      have hp : p ≤ maxPage := Nat.le_of_lt_succ (List.mem_range.mp hp)
      exact Classical.byContradiction fun hleft => hnone ⟨p, hp, hleft⟩
    have := List.nodup_range.length_le_of_subset hsubset
    rw [List.length_range] at this
    omega
  · rintro ⟨p, hp, hleft⟩
    have hsubset : p :: (reading context url style items replies page soFar).asked ⊆
        List.range (maxPage + 1) := by
      intro q hq
      rcases List.mem_cons.mp hq with rfl | hq
      · exact List.mem_range.mpr (Nat.lt_succ_of_le hp)
      · exact List.mem_range.mpr (Nat.lt_succ_of_le (asked_le hpage q hq))
    have := (List.nodup_cons.mpr ⟨hleft, hnodup⟩).length_le_of_subset hsubset
    rw [List.length_range, List.length_cons] at this
    omega

/-! ## Leading back -/

/-- From `page` on, no reply that is followed leads back to a page of `seen` or to one that was
asked for since. -/
def NeverBack (context : String) (url : Url) (style : PageStyle) (items : Json.Decoder (List α)) :
    List Reply → (page : Nat) → (seen : List Nat) → Prop
  | [], _, _ => True
  | reply :: rest, page, seen =>
    match readPage context url style items page reply with
    | .ok (_, .page n) =>
      n ≤ maxPage → n ∉ page :: seen ∧ NeverBack context url style items rest n (page :: seen)
    | _ => True

theorem nodup_cons_avoids_iff {n : Nat} {later seen : List Nat} :
    (n :: later).Nodup ∧ (∀ m ∈ n :: later, m ∉ seen) ↔
      n ∉ seen ∧ later.Nodup ∧ ∀ m ∈ later, m ∉ n :: seen := by
  constructor
  · rintro ⟨hnodup, havoids⟩
    obtain ⟨hn, hlater⟩ := List.nodup_cons.mp hnodup
    refine ⟨havoids n List.mem_cons_self, hlater, fun m hm => ?_⟩
    refine List.not_mem_cons_of_ne_of_not_mem ?_ (havoids m (List.mem_cons_of_mem _ hm))
    rintro rfl
    exact hn hm
  · rintro ⟨hn, hlater, havoids⟩
    refine ⟨List.nodup_cons.mpr ⟨fun hm => havoids n hm List.mem_cons_self, hlater⟩, ?_⟩
    intro m hm
    rcases List.mem_cons.mp hm with rfl | hm
    · exact hn
    · exact List.not_mem_of_not_mem_cons (havoids m hm)

theorem neverBack_iff {replies : List Reply} {page : Nat} {soFar : List α} {seen : List Nat} :
    NeverBack context url style items replies page seen ↔
      (reading context url style items replies page soFar).asked.tail.Nodup ∧
      ∀ n ∈ (reading context url style items replies page soFar).asked.tail, n ∉ page :: seen := by
  induction replies generalizing page soFar seen with
  | nil => simp [NeverBack, reading]
  | cons reply rest ih =>
    rw [reading, NeverBack]
    cases hread : readPage context url style items page reply with
    | error e => simp
    | ok found =>
      obtain ⟨batch, next⟩ := found
      cases next with
      | last => simp
      | page n =>
        by_cases hn : maxPage < n
        · simp [hn, Nat.not_le.mpr hn]
        · have hcons : ∃ later, (reading context url style items rest n (soFar ++ batch)).asked =
              n :: later := asked_eq_cons _ _ _
          obtain ⟨later, hlater⟩ := hcons
          have hih : NeverBack context url style items rest n (page :: seen) ↔
            (reading context url style items rest n (soFar ++ batch)).asked.tail.Nodup ∧ _ := ih
          rw [hlater, List.tail_cons] at hih
          -- page `n` is asked for next, and has to be a new one like those after it
          simp only [if_neg hn, Reading.after, hlater, List.tail_cons, Nat.le_of_not_lt hn,
            forall_const]
          rw [hih, nodup_cons_avoids_iff]

theorem nodup_asked_iff {replies : List Reply} {page : Nat} {soFar : List α} :
    (reading context url style items replies page soFar).asked.Nodup ↔
      NeverBack context url style items replies page [] := by
  have hback : NeverBack context url style items replies page [] ↔
    (reading context url style items replies page soFar).asked.tail.Nodup ∧ _ := neverBack_iff
  have hcons : ∃ later, (reading context url style items replies page soFar).asked =
    page :: later := asked_eq_cons _ _ _
  obtain ⟨later, hlater⟩ := hcons
  rw [hlater, List.tail_cons] at hback
  rw [hback, hlater, List.nodup_cons]
  constructor
  · rintro ⟨hpage, hnodup⟩
    refine ⟨hnodup, fun n hn => ?_⟩
    rw [List.mem_singleton]
    rintro rfl
    exact hpage hn
  · rintro ⟨hnodup, havoids⟩
    exact ⟨fun hpage => havoids page hpage List.mem_cons_self, hnodup⟩

/-! ## The bound -/

/-- The pages that a listing asks for, in order. -/
def pagesAsked (context : String) (url : Url) (style : PageStyle) (items : Json.Decoder (List α))
    (x : Exchange) : List Nat :=
  if url.isHttp then (reading context url style items x.pending 1 []).asked else []

theorem state_leave (r : Reading α) (x : Exchange) :
    (r.leave url style x).state = x.after (r.asked.map (pageRequest url style)) := by
  simp [Reading.leave, Exchange.after]

theorem state_pages (x : Exchange) :
    (Task.ofAttempt (pages context url style items) x).state =
      x.after ((pagesAsked context url style items x).map (pageRequest url style)) := by
  unfold pagesAsked
  by_cases hurl : url.isHttp = true
  · rw [pages_of_isHttp hurl, if_pos hurl, state_leave]
  · have hpages : ∃ e, Task.ofAttempt (pages context url style items) x = ⟨.error e, 0, x⟩ :=
      pages_of_not_isHttp hurl x
    obtain ⟨e, he⟩ := hpages
    rw [he, if_neg hurl, List.map_nil, Exchange.after_nil]

theorem sent_pages (x : Exchange) :
    (Task.ofAttempt (pages context url style items) x).state.sent =
      x.sent ++ ((pagesAsked context url style items x).map (pageRequest url style)).toArray := by
  rw [state_pages]
  rfl

/-- A listing asks for `maxPage` pages at most, and for none twice, exactly if the server never
leads back and leaves a page out. -/
theorem pages_bounded_iff (context : String) (url : Url) (style : PageStyle)
    (items : Json.Decoder (List α)) (x : Exchange) :
    (Task.ofAttempt (pages context url style items) x).state.sent =
        x.sent ++ ((pagesAsked context url style items x).map (pageRequest url style)).toArray ∧
    ((pagesAsked context url style items x).length ≤ maxPage ∧
        (pagesAsked context url style items x).Nodup ↔
      (url.isHttp = true → NeverBack context url style items x.pending 1 [] ∧
        ∃ page ≤ maxPage, page ∉ pagesAsked context url style items x)) := by
  refine ⟨sent_pages x, ?_⟩
  unfold pagesAsked
  by_cases hurl : url.isHttp = true
  · simp only [hurl, if_true, forall_const]
    rw [and_comm, ← nodup_asked_iff]
    exact and_congr_right fun hnodup => length_asked_le_iff (by decide) hnodup
  · simp [hurl]

/-- A server that stands still is asked for the same page as long as it replies. -/
theorem asked_of_standstill {page : Nat} {reply : Reply} {batch : List α} (hpage : page ≤ maxPage)
    (hread : readPage context url style items page reply = .ok (batch, .page page)) (n : Nat)
    (soFar : List α) :
    (reading context url style items (List.replicate n reply) page soFar).asked =
      List.replicate (n + 1) page := by
  induction n generalizing soFar with
  | zero => rfl
  | succ n ih =>
    rw [List.replicate_succ, reading, hread]
    simp only [if_neg (Nat.not_lt.mpr hpage), Reading.after, ih]
    rfl

/-- What a server replies that names page 1 as the next one, whatever page it is asked for. -/
def standstill : Reply := .prompt [("x-next-page", "1")] "[]"

/-- Where the items of such a server are listed. -/
def standstillUrl : Url :=
  ⟨"https", some ⟨"", none, "h", none⟩, .segments ["api", "items"], none, none⟩

/-- No bound holds for a server that stands still, nor is each of its pages asked for once. -/
theorem pages_unbounded :
    (¬ ∃ bound, ∀ x : Exchange,
      (Task.ofAttempt (pages "list items" standstillUrl ⟨"per_page", 1⟩ (.list .natural))
        x).state.sent.size ≤ x.sent.size + bound) ∧
    ¬ ∀ x : Exchange,
      (pagesAsked "list items" standstillUrl ⟨"per_page", 1⟩ (.list .natural) x).Nodup := by
  have hread : readPage "list items" standstillUrl ⟨"per_page", 1⟩ (.list .natural) 1 standstill =
      .ok ([], .page 1) := by
    have hbatch : (Response.success [("x-next-page", "1")] "[]").text?.bind
        (Json.Decoder.list .natural).read = some [] := by decide +kernel
    have hnext : nextPage ⟨"per_page", 1⟩ (.success [("x-next-page", "1")] "[]") 0 1 = .page 1 := by
      decide
    exact (readPage_of_success 1 rfl hbatch).trans (by rw [List.length_nil, hnext])
  have hasked : ∀ n, pagesAsked "list items" standstillUrl ⟨"per_page", 1⟩ (.list .natural)
      ⟨List.replicate n standstill, #[]⟩ = List.replicate (n + 1) 1 :=
    fun n => asked_of_standstill (by decide) hread n []
  constructor
  · rintro ⟨bound, hbound⟩
    have hsize := hbound ⟨List.replicate bound standstill, #[]⟩
    rw [sent_pages, hasked] at hsize
    simp only [List.map_replicate, Array.size_append, List.size_toArray,
      List.length_replicate] at hsize
    omega
  · intro hnodup
    have htwice := hnodup ⟨List.replicate 1 standstill, #[]⟩
    rw [hasked] at htwice
    simp at htwice

end Http
end ForgeChores
