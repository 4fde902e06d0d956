import ForgeChores.Http.Failure
import ForgeChores.Proofs.Json.Text
import ForgeChores.Proofs.Text.Trim

/-!
# ForgeChores.Proofs.Http.Failure

What is taken from the body of an answer other than success, and what its words make of it.

* `Carries`: a body is JSON and has a message in it.
* `message_extracted`: that message is taken whole, and without one the body is shown or the status
  is named.
* `classify_structured`: words that tell of a conflict or of something missing are found at
  whatever depth of a message they stand.
-/

namespace ForgeChores
namespace Failure

variable {body context m : String} {status : Nat} {o v : Json}

/-! ## Messages -/

/-- The body is JSON and `m` is the message in it. -/
inductive Carries (body : String) : String → Prop where
  /-- A text under `message`. -/
  | text {o : Json} {m : String} : Json.parse? body = some o →
      o.get? "message" = some (.string m) → m ≠ "" → Carries body m
  /-- Any other value there, as JSON. -/
  | value {o v : Json} : Json.parse? body = some o → o.get? "message" = some v → v ≠ .null →
      (∀ s, v ≠ .string s) → Carries body v.text
  /-- Nothing there, but a text under `error`. -/
  | error {o : Json} {m : String} : Json.parse? body = some o →
      o.get? "message" = none ∨ o.get? "message" = some .null →
      o.get? "error" = some (.string m) → m ≠ "" → Carries body m

theorem ofJson?_of_text (h : o.get? "message" = some (.string m)) : ofJson? o = some m := by
  simp [ofJson?, h]

theorem ofJson?_of_value (h : o.get? "message" = some v) (hnull : v ≠ .null)
    (htext : ∀ s, v ≠ .string s) : ofJson? o = some v.text := by
  cases v with
  | null => exact absurd rfl hnull
  | string s => exact absurd rfl (htext s)
  | bool b => simp [ofJson?, h]
  | number n => simp [ofJson?, h]
  | array items => simp [ofJson?, h]
  | members fields => simp [ofJson?, h]

/-- Without a `message` only a text under `error` counts. -/
theorem ofJson?_of_absent (h : o.get? "message" = none ∨ o.get? "message" = some .null) :
    ofJson? o = some m ↔ o.get? "error" = some (.string m) := by
  unfold ofJson?
  rcases h with h | h
  · rw [h]
    split <;> simp_all
  · rw [h]
    split <;> simp_all

theorem carries_iff : Carries body m ↔ (Json.parse? body).bind ofJson? = some m ∧ m ≠ "" := by
  constructor
  · intro h
    cases h with
    | text hbody htext hm =>
      rw [hbody]
      exact ⟨ofJson?_of_text htext, hm⟩
    | value hbody hvalue hnull htext =>
      rw [hbody]
      exact ⟨ofJson?_of_value hvalue hnull htext, Json.text_ne_empty _⟩
    | error hbody habsent herror hm =>
      rw [hbody]
      exact ⟨(ofJson?_of_absent habsent).mpr herror, hm⟩
  · rintro ⟨h, hm⟩
    obtain ⟨o, hbody, ho⟩ := Option.bind_eq_some_iff.mp h
    cases hmessage : o.get? "message" with
    | none =>
      have habsent := Or.inl (b := o.get? "message" = some .null) hmessage
      exact .error hbody habsent ((ofJson?_of_absent habsent).mp ho) hm
    | some v =>
      by_cases hnull : v = .null
      · subst hnull
        have habsent := Or.inr (a := o.get? "message" = none) hmessage
        exact .error hbody habsent ((ofJson?_of_absent habsent).mp ho) hm
      · by_cases htext : ∃ s, v = .string s
        · obtain ⟨s, rfl⟩ := htext
          rw [ofJson?_of_text hmessage] at ho
          cases ho
          exact .text hbody hmessage hm
        · have htext' : ∀ s, v ≠ .string s := fun s hs => htext ⟨s, hs⟩
          rw [ofJson?_of_value hmessage hnull htext'] at ho
          cases ho
          exact .value hbody hmessage hnull htext'

theorem message_of_carries (h : Carries body m) (status : Nat) : message status body = m := by
  obtain ⟨hm, hne⟩ := carries_iff.mp h
  unfold message
  simp only [hm, Option.getD_some]
  rw [if_pos hne]

/-- What is said of an answer whose body carries no message. -/
def fallback (status : Nat) (body : String) : String :=
  if Text.trim body = "" then (Http.reason? status).getD "unknown error"
  else String.ofList ((Text.trim body).toList.take shownLength)

theorem message_of_silent (h : ∀ m, ¬ Carries body m) (status : Nat) :
    message status body = fallback status body := by
  have hjson : ((Json.parse? body).bind ofJson?).getD "" = "" := by
    cases hm : (Json.parse? body).bind ofJson? with
    | none => rfl
    | some m =>
      by_contra hne
      exact h m (carries_iff.mpr ⟨hm, hne⟩)
  have hshown : ((Text.trim body).toList.take shownLength).isEmpty = true ↔ Text.trim body = "" := by
    simp [shownLength]
  unfold message fallback
  simp only [hjson, hshown]
  rw [if_neg (not_not_intro rfl)]

theorem reason_ne_empty (status : Nat) : (Http.reason? status).getD "unknown error" ≠ "" := by
  unfold Http.reason?
  split <;> simp

theorem fallback_ne_empty (status : Nat) (body : String) : fallback status body ≠ "" := by
  unfold fallback
  split
  · exact reason_ne_empty status
  · simpa [shownLength] using ‹_›

theorem not_carries_of_blank (h : Text.trim body = "") (m : String) : ¬ Carries body m := by
  rw [carries_iff, Json.parse?_of_blank (Text.trim_eq_empty_iff.mp h)]
  simp

/-- The message of an answer is never empty. It is the one that the body carries, uncut; else the
beginning of the body; and for a blank body the name of the status. -/
theorem message_extracted (status : Nat) (body : String) :
    message status body ≠ "" ∧
    (∀ m, Carries body m → message status body = m) ∧
    ((∀ m, ¬ Carries body m) → Text.trim body ≠ "" →
      (message status body).toList =
        (Text.trim body).toList.take (min 200 (Text.trim body).length)) ∧
    (Text.trim body = "" → message status body = (Http.reason? status).getD "unknown error") := by
  refine ⟨?_, fun m hm => message_of_carries hm status, fun hsilent hbody => ?_, fun hblank => ?_⟩
  · by_cases h : ∃ m, Carries body m
    · obtain ⟨m, hm⟩ := h
      rw [message_of_carries hm]
      exact (carries_iff.mp hm).2
    · rw [message_of_silent fun m hm => h ⟨m, hm⟩]
      exact fallback_ne_empty status body
  · rw [message_of_silent hsilent, fallback, if_neg hbody, String.toList_ofList, shownLength,
      ← String.length_toList, List.take_eq_take_min]
  · rw [message_of_silent (not_carries_of_blank hblank), fallback, if_pos hblank]

/-! ## Words -/

/-- A text says that something is there already, in whatever letter case. -/
def TellsConflict (s : String) : Prop :=
  Text.contains (Text.lower s) "already exists" = true ∨
    Text.contains (Text.lower s) "has already been taken" = true

/-- A text says that something is not there. -/
def TellsMissing (s : String) : Prop := Text.contains (Text.lower s) "does not exist" = true

/-- The status says by itself that trying again may help. -/
def Passing (status : Nat) : Prop := status = 408 ∨ status = 429 ∨ 500 ≤ status ∧ status ≤ 599

theorem classify_of_conflict (hmissing : status ≠ 404) (hstatus : ¬ Passing status)
    (h : TellsConflict m) : classify context status m = .conflict context m := by
  unfold Passing at hstatus
  unfold TellsConflict at h
  have hagain : ¬ (status = 408 ∨ status = 429) := by omega
  have hserver : ¬ (500 ≤ status ∧ status ≤ 599) := by omega
  simp [classify, hmissing, hagain, hserver, h]

theorem classify_of_missing (hconflict : status ≠ 409) (hstatus : ¬ Passing status)
    (hno : ¬ TellsConflict m) (h : TellsMissing m) :
    classify context status m = .notFound context m := by
  unfold Passing at hstatus
  unfold TellsConflict at hno
  unfold TellsMissing at h
  have hagain : ¬ (status = 408 ∨ status = 429) := by omega
  have hserver : ¬ (500 ≤ status ∧ status ≤ 599) := by omega
  simp [classify, hconflict, hagain, hserver, hno, h]

theorem tellsConflict_of_mentions {s : String} (hs : v.Mentions s) (h : TellsConflict s) :
    TellsConflict v.text := by
  rcases h with h | h
  · exact .inl (hs.contains_text (by decide) h)
  · exact .inr (hs.contains_text (by decide) h)

theorem tellsMissing_of_mentions {s : String} (hs : v.Mentions s) (h : TellsMissing s) :
    TellsMissing v.text := hs.contains_text (by decide) h

/-! ## Structured messages -/

/-- An array or an object. -/
def IsStructured : Json → Prop
  | .array _ => True
  | .members _ => True
  | _ => False

theorem carries_of_structured (hbody : Json.parse? body = some o)
    (hv : o.get? "message" = some v) (hstructured : IsStructured v) : Carries body v.text := by
  refine .value hbody hv ?_ ?_
  · rintro rfl
    exact hstructured
  · rintro s rfl
    exact hstructured

/-- The words of a structured message count wherever in it they stand: those of a conflict first,
and those of something missing where the whole message has none of a conflict. -/
theorem classify_structured (hbody : Json.parse? body = some o)
    (hv : o.get? "message" = some v) (hstructured : IsStructured v) :
    ((∃ s, v.Mentions s ∧ TellsConflict s) → status ≠ 404 → ¬ Passing status →
      classify context status (message status body) = .conflict context v.text) ∧
    ((∃ s, v.Mentions s ∧ TellsMissing s) → ¬ TellsConflict v.text → status ≠ 409 →
      ¬ Passing status →
      classify context status (message status body) = .notFound context v.text) := by
  rw [message_of_carries (carries_of_structured hbody hv hstructured)]
  constructor
  · rintro ⟨s, hs, htells⟩ hmissing hstatus
    exact classify_of_conflict hmissing hstatus (tellsConflict_of_mentions hs htells)
  · rintro ⟨s, hs, htells⟩ hno hconflict hstatus
    exact classify_of_missing hconflict hstatus hno (tellsMissing_of_mentions hs htells)

/-- A conflict in a nested string, in mixed case, and something missing in the name of a member. -/
theorem classify_structured_nested :
    let taken : Json := .members [("name", .array [.string "Has ALREADY been taken"])]
    let missing : Json := .array [.members [("base \"x\" Does Not Exist", .null)]]
    Json.parse? "\x7b\"message\": \x7b\"name\": [\"Has ALREADY been taken\"]\x7d\x7d" =
        some (.members [("message", taken)]) ∧
      Json.parse? "\x7b\"message\": [\x7b\"base \\\"x\\\" Does Not Exist\": null\x7d]\x7d" =
        some (.members [("message", missing)]) ∧
      classify "fork" 400 (message 400
          "\x7b\"message\": \x7b\"name\": [\"Has ALREADY been taken\"]\x7d\x7d") =
        .conflict "fork" taken.text ∧
      classify "fork" 422 (message 422
          "\x7b\"message\": [\x7b\"base \\\"x\\\" Does Not Exist\": null\x7d]\x7d") =
        .notFound "fork" missing.text := by
  intro taken missing
  have htaken : Json.parse? "\x7b\"message\": \x7b\"name\": [\"Has ALREADY been taken\"]\x7d\x7d" =
      some (.members [("message", taken)]) := by cbv
  have hmissing : Json.parse?
      "\x7b\"message\": [\x7b\"base \\\"x\\\" Does Not Exist\": null\x7d]\x7d" =
      some (.members [("message", missing)]) := by cbv
  refine ⟨htaken, hmissing, ?_, ?_⟩
  · refine (classify_structured htaken rfl trivial).1 ⟨"Has ALREADY been taken", ?_, ?_⟩ ?_ ?_
    · exact .value List.mem_cons_self (.item List.mem_cons_self .string)
    · exact .inr (by decide)
    · decide
    · unfold Passing
      decide
  · refine (classify_structured hmissing rfl trivial).2 ⟨"base \"x\" Does Not Exist", ?_, ?_⟩ ?_ ?_ ?_
    · exact .item List.mem_cons_self (.name List.mem_cons_self)
    · unfold TellsMissing
      decide
    · unfold TellsConflict
      decide
    · decide
    · unfold Passing
      decide

/-- The escape of a character may end in the first letter of a phrase, and a message then has words
that none of its strings has. -/
example :
    let v : Json := .array [.string "\x1already exists"]
    (∀ s, v.Mentions s → ¬ TellsConflict s) ∧ TellsConflict v.text := by
  refine ⟨fun s hs => ?_, .inl (by decide)⟩
  cases hs with
  | item hitem hs =>
    rw [List.mem_singleton] at hitem
    subst hitem
    cases hs
    unfold TellsConflict
    decide

end Failure
end ForgeChores
