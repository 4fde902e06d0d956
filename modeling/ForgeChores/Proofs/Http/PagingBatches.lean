import ForgeChores.Proofs.Http.PagingBound

/-!
# ForgeChores.Proofs.Http.PagingBatches

Lists that are read to their end.

A listing gives a list exactly if the replies to it are pages that lead on from the first one up to
one that ends the list (`BatchesFrom`), and then it gives what these pages hold, in their order.

* `result_of_batches`, `batches_of_result`: for the reading of a row of replies.
* `pages_ok_iff`: for a listing, wherever it is sent.
-/

namespace ForgeChores
namespace Http

variable {α : Type} {context : String} {url : Url} {style : PageStyle}
  {items : Json.Decoder (List α)}

/-- Every page from `page` on is read, one reply for each, up to one that ends the list. -/
inductive BatchesFrom (context : String) (url : Url) (style : PageStyle)
    (items : Json.Decoder (List α)) : List Reply → (page : Nat) → List (List α) → Prop where
  | last {reply : Reply} {rest : List Reply} {page : Nat} {batch : List α} :
      readPage context url style items page reply = .ok (batch, .last) →
      BatchesFrom context url style items (reply :: rest) page [batch]
  | next {reply : Reply} {rest : List Reply} {page n : Nat} {batch : List α}
      {batches : List (List α)} :
      readPage context url style items page reply = .ok (batch, .page n) → n ≤ maxPage →
      BatchesFrom context url style items rest n batches →
      BatchesFrom context url style items (reply :: rest) page (batch :: batches)

theorem result_of_batches {replies : List Reply} {page : Nat} {batches : List (List α)}
    (h : BatchesFrom context url style items replies page batches) (soFar : List α) :
    (reading context url style items replies page soFar).result =
      .ok (soFar ++ batches.flatten) := by
  induction h generalizing soFar with
  | last hread => simp [reading, hread]
  | next hread hn _ ih =>
    simp only [reading, hread, if_neg (Nat.not_lt.mpr hn), Reading.after, ih, List.flatten_cons,
      List.append_assoc]

theorem batches_of_result {replies : List Reply} {page : Nat} {soFar list : List α}
    (h : (reading context url style items replies page soFar).result = .ok list) :
    ∃ batches, BatchesFrom context url style items replies page batches ∧
      list = soFar ++ batches.flatten := by
  induction replies generalizing page soFar with
  | nil => cases h
  | cons reply rest ih =>
    rw [reading] at h
    cases hread : readPage context url style items page reply with
    | error e =>
      rw [hread] at h
      cases h
    | ok found =>
      obtain ⟨batch, next⟩ := found
      rw [hread] at h
      cases next with
      | last =>
        cases h
        exact ⟨[batch], .last hread, by simp⟩
      | page n =>
        by_cases hn : maxPage < n
        · simp only [if_pos hn] at h
          cases h
        · simp only [if_neg hn, Reading.after] at h
          obtain ⟨batches, hbatches, hlist⟩ := ih h
          refine ⟨batch :: batches, .next hread (Nat.le_of_not_lt hn) hbatches, ?_⟩
          rw [hlist, List.flatten_cons, List.append_assoc]

/-! ## Listings -/

theorem pages_ok_iff {x : Exchange} {list : List α} :
    (Task.ofAttempt (pages context url style items) x).result = .ok list ↔
      url.isHttp = true ∧ ∃ batches,
        BatchesFrom context url style items x.pending 1 batches ∧ list = batches.flatten := by
  by_cases hurl : url.isHttp = true
  · rw [pages_of_isHttp hurl]
    constructor
    · intro hresult
      obtain ⟨batches, hbatches, hlist⟩ := batches_of_result hresult
      exact ⟨hurl, batches, hbatches, hlist⟩
    · rintro ⟨-, batches, hbatches, rfl⟩
      exact result_of_batches hbatches []
  · have hpages : ∃ e, Task.ofAttempt (pages context url style items) x = ⟨.error e, 0, x⟩ :=
      pages_of_not_isHttp hurl x
    obtain ⟨e, he⟩ := hpages
    simp [he, hurl]

/-- Wherever something can be asked at all, a listing begins with the first page. -/
theorem pagesAsked_eq_cons (hurl : url.isHttp = true) (x : Exchange) :
    ∃ later, pagesAsked context url style items x = 1 :: later := by
  unfold pagesAsked
  rw [if_pos hurl]
  exact asked_eq_cons x.pending 1 []

end Http
end ForgeChores
