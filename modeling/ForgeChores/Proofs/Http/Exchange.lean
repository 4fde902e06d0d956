import ForgeChores.Http
import ForgeChores.Proofs.Activity

/-!
# ForgeChores.Proofs.Http.Exchange

What one request comes to when no limit cuts it off. `Reply.success?` and `Reply.read?` say it of
the reply alone, without the context, which only shows in failures.

* `Response.Says`, `Reply.Says`: what a body says, of the value that is written in it.
* `send_bind`: a request uses up one reply, takes the time of the reply and is remembered.
* `sendJson_ok_iff`: a request with a body to read succeeds when the next reply can be read.
* `send_within`, `sendJson_within` and their like: a request takes `requestTimeout` at most.
-/

namespace ForgeChores

/-- The answer that a reply brings in time, if it is a success. -/
def Reply.success? (reply : Reply) : Option Response :=
  if Exchange.requestTimeout ≤ reply.delay then none else reply.answer.filter Response.isSuccess

/-- What a reply says to a reader of its body. -/
def Reply.read? {α : Type} (d : Json.Decoder α) (reply : Reply) : Option α :=
  reply.success?.bind fun r => r.text?.bind d.read

/-- The body is the text of a value of which `P` holds. -/
def Response.Says (r : Response) (P : Json.Written → Prop) : Prop :=
  ∃ text w, r.text? = some text ∧ Json.Written.parse? text = some w ∧ P w

/-- The reply brings a success in time, and its body is the text of a value of which `P` holds. -/
def Reply.Says (reply : Reply) (P : Json.Written → Prop) : Prop :=
  ∃ r, reply.success? = some r ∧ r.Says P

/-- The method, the URL and the body that go out. -/
def Request.shown (q : Request) : Method × String × Option String :=
  (q.method, q.url.text, q.body.map Json.text)

/-- A success with a body of text. -/
def Response.success (headers : List (String × String)) (body : String) : Response :=
  ⟨200, headers, some (Text.Utf8.encode body)⟩

/-- A success at once. -/
def Reply.prompt (headers : List (String × String)) (body : String) : Reply :=
  ⟨0, some (.success headers body)⟩

@[simp] theorem Reply.success?_prompt (headers : List (String × String)) (body : String) :
    (Reply.prompt headers body).success? = some (.success headers body) := rfl

namespace Exchange

variable {context : String} {q : Request} {reply : Reply} {r : Response}

/-- How long the answer to a request is waited for. -/
def waited (reply : Reply) : Nat := min requestTimeout reply.delay

theorem outcome_fst (reply : Reply) : (outcome context q reply).1 = waited reply := by
  unfold outcome waited
  by_cases hlate : requestTimeout ≤ reply.delay
  · rw [if_pos hlate, Nat.min_eq_left hlate]
  · rw [Nat.min_eq_right (by omega)]
    simp only [hlate, if_false]
    cases reply.answer <;> rfl

theorem outcome_eq_ok_iff : (outcome context q reply).2 = .ok r ↔ reply.success? = some r := by
  unfold outcome Reply.success?
  by_cases hlate : requestTimeout ≤ reply.delay
  · simp [hlate]
  · simp only [hlate, if_false]
    cases reply.answer with
    | none => simp
    | some r' =>
      by_cases hr : r'.isSuccess = true
      · simp [hr, Option.filter]
      · simp [hr, Option.filter]

/-- A success with its body left aside. -/
theorem map_unit_eq_ok_iff :
    ((outcome context q reply).2.map fun _ => ()) = .ok () ↔ reply.success? ≠ none := by
  have houtcome : ∀ r, (outcome context q reply).2 = .ok r ↔ reply.success? = some r :=
    fun _ => outcome_eq_ok_iff
  rw [Option.ne_none_iff_exists']
  simp only [← houtcome]
  cases (outcome context q reply).2 with
  | error e => simp [Except.map]
  | ok r => simp [Except.map]

@[simp] theorem success?_exhausted : exhausted.success? = none := by decide

/-- Only a reply that is pending can bring a success. -/
theorem next_of_success {x : Exchange} (h : (x.next q).1.success? = some r) :
    ∃ reply rest, x.pending = reply :: rest ∧ x.next q = (reply, ⟨rest, x.sent.push q⟩) := by
  unfold next at h ⊢
  cases hp : x.pending with
  | nil => simp [hp] at h
  | cons reply rest => exact ⟨reply, rest, rfl, rfl⟩

theorem next_snd (x : Exchange) : (x.next q).2 = ⟨x.pending.drop 1, x.sent.push q⟩ := by
  unfold next
  cases x.pending <;> rfl

theorem next_cons {x : Exchange} {rest : List Reply} (h : x.pending = reply :: rest) :
    x.next q = (reply, ⟨rest, x.sent.push q⟩) := by
  unfold next
  rw [h]

end Exchange

theorem Response.decode_eq_ok_iff {α : Type} {context : String} {d : Json.Decoder α} {r : Response}
    {a : α} : r.decode context d = .ok a ↔ r.text?.bind d.read = some a := by
  unfold decode
  cases r.text? with
  | none => simp
  | some text =>
    cases hd : d.read text with
    | none => simp [hd]
    | some a' => simp [hd]

/-- A reader that takes the values of which `P a` holds for `a` finds `a` where the body says so. -/
theorem Response.read_eq_some_iff {α : Type} {d : Json.Decoder α} {P : α → Json.Written → Prop}
    (hd : ∀ w a, d w = some a ↔ P a w) {r : Response} {a : α} :
    r.text?.bind d.read = some a ↔ r.Says (P a) := by
  simp only [Option.bind_eq_some_iff, Json.Decoder.read, hd, Says, Option.bind_eq_bind]
  constructor
  · rintro ⟨text, htext, w, hw, ha⟩
    exact ⟨text, w, htext, hw, ha⟩
  · rintro ⟨text, w, htext, hw, ha⟩
    exact ⟨text, htext, w, hw, ha⟩

theorem Response.decode_eq_ok_iff_says {α : Type} {context : String} {d : Json.Decoder α}
    {P : α → Json.Written → Prop} (hd : ∀ w a, d w = some a ↔ P a w) {r : Response} {a : α} :
    r.decode context d = .ok a ↔ r.Says (P a) :=
  decode_eq_ok_iff.trans (read_eq_some_iff hd)

theorem Reply.read?_eq_some_iff {α : Type} {d : Json.Decoder α} {P : α → Json.Written → Prop}
    (hd : ∀ w a, d w = some a ↔ P a w) {reply : Reply} {a : α} :
    reply.read? d = some a ↔ reply.Says (P a) := by
  simp only [read?, Option.bind_eq_some_iff, Says, ← Response.read_eq_some_iff hd]

/-- An answer that is read is a success with a readable body. -/
theorem Exchange.decoded_outcome_eq_ok_iff {α : Type} {context : String} {q : Request}
    {d : Json.Decoder α} {reply : Reply} {a : α} :
    ((outcome context q reply).2 >>= fun r => r.decode context d) = .ok a ↔
      reply.read? d = some a := by
  unfold Reply.read?
  rw [except_bind_eq_ok, Option.bind_eq_some_iff]
  simp only [outcome_eq_ok_iff, Response.decode_eq_ok_iff]

namespace Http

variable {α : Type} {context : String} {q : Request} {d : Json.Decoder α} {x : Exchange}

theorem send_of_isHttp (hq : q.url.isHttp = true) :
    Task.ofAttempt (send context q) x =
      ⟨(Exchange.outcome context q (x.next q).1).2, Exchange.waited (x.next q).1,
        (x.next q).2⟩ := by
  unfold send
  rw [if_pos hq, Task.ofAttempt_step, ← Exchange.outcome_fst]

/-- A request and then a look at the answer that takes no time. -/
theorem send_bind (hq : q.url.isHttp = true) {f : Response → Attempt Exchange ForgeError α}
    {g : Response → Except ForgeError α} (hf : ∀ r, Task.ofAttempt (f r) = Task.ofExcept (g r)) :
    Task.ofAttempt (send context q >>= f) x =
      ⟨(Exchange.outcome context q (x.next q).1).2 >>= g, Exchange.waited (x.next q).1,
        (x.next q).2⟩ := by
  have hsend : Task.ofAttempt (send context q) x = _ := send_of_isHttp hq
  rw [Task.ofAttempt_bind]
  cases hout : (Exchange.outcome context q (x.next q).1).2 with
  | error e => rw [hout] at hsend; rw [Task.bind_of_error hsend]; rfl
  | ok r => rw [hout] at hsend; rw [Task.bind_of_ok hsend, hf]; rfl

theorem send_of_not_isHttp (hq : ¬ q.url.isHttp = true) :
    send context q =
      .fail (.provider context none ("builder error for url (" ++ q.shownUrl ++ ")")) := if_neg hq

/-- Elsewhere than with HTTP nothing is sent. -/
theorem send_bind_of_not_isHttp (hq : ¬ q.url.isHttp = true)
    {f : Response → Attempt Exchange ForgeError α} :
    ∃ e, Task.ofAttempt (send context q >>= f) x = ⟨.error e, 0, x⟩ := by
  rw [send_of_not_isHttp hq, Task.ofAttempt_bind]
  exact ⟨_, rfl⟩

theorem sendJson_of_isHttp (hq : q.url.isHttp = true) :
    Task.ofAttempt (sendJson context d q) x =
      ⟨(Exchange.outcome context q (x.next q).1).2 >>= fun r => r.decode context d,
        Exchange.waited (x.next q).1, (x.next q).2⟩ :=
  send_bind hq fun _ => Task.ofAttempt_ofExcept _

/-- A request with a body to read succeeds when the next reply says what is asked for. -/
theorem sendJson_ok_iff {a : α} :
    (Task.ofAttempt (sendJson context d q) x).result = .ok a ↔
      q.url.isHttp = true ∧ ∃ reply rest, x.pending = reply :: rest ∧ reply.read? d = some a := by
  by_cases hq : q.url.isHttp = true
  · rw [sendJson_of_isHttp hq, Exchange.decoded_outcome_eq_ok_iff]
    constructor
    · intro hread
      obtain ⟨r, hr, -⟩ := Option.bind_eq_some_iff.mp hread
      obtain ⟨reply, rest, hp, hn⟩ := Exchange.next_of_success hr
      rw [hn] at hread
      exact ⟨hq, reply, rest, hp, hread⟩
    · rintro ⟨-, reply, rest, hp, hread⟩
      rw [Exchange.next_cons hp]
      exact hread
  · have herr : ∃ e, Task.ofAttempt (sendJson context d q) x = ⟨.error e, 0, x⟩ :=
      send_bind_of_not_isHttp hq
    obtain ⟨e, he⟩ := herr
    simp [he, hq]

theorem state_sendJson_of_ok {a : α} {reply : Reply} {rest : List Reply}
    (h : (Task.ofAttempt (sendJson context d q) x).result = .ok a) (hp : x.pending = reply :: rest) :
    (Task.ofAttempt (sendJson context d q) x).state = ⟨rest, x.sent.push q⟩ := by
  rw [sendJson_of_isHttp (sendJson_ok_iff.mp h).1, Exchange.next_cons hp]

/-! ## What follows a request -/

theorem sendEmpty_bind {β : Type} (f : Unit → Task Exchange ForgeError β) :
    (Task.ofAttempt (sendEmpty context q) >>= f) =
      Task.ofAttempt (send context q) >>= fun _ => f () := by
  unfold sendEmpty
  rw [Task.ofAttempt_bind, Task.bind_assoc]
  refine congrArg _ (funext fun _ => ?_)
  exact Task.ofExcept_ok_bind () f

theorem sendJson_bind {β : Type} (f : α → Task Exchange ForgeError β) :
    (Task.ofAttempt (sendJson context d q) >>= f) =
      Task.ofAttempt (send context q) >>= fun r => Task.ofExcept (r.decode context d) >>= f := by
  unfold sendJson
  rw [Task.ofAttempt_bind, Task.bind_assoc]
  simp only [Task.ofAttempt_ofExcept]

/-! ## How long a request takes -/

theorem send_within : (Task.ofAttempt (send context q)).Within Exchange.requestTimeout := by
  intro x
  by_cases hq : q.url.isHttp = true
  · rw [send_of_isHttp hq]
    exact Nat.min_le_left _ _
  · rw [send_of_not_isHttp hq]
    exact Nat.zero_le _

theorem sendEmpty_within : (Task.ofAttempt (sendEmpty context q)).Within Exchange.requestTimeout := by
  unfold sendEmpty
  rw [Task.ofAttempt_bind]
  exact Task.within_bind_instant send_within fun _ => Task.within_pure _ 0

theorem sendJson_within : (Task.ofAttempt (sendJson context d q)).Within Exchange.requestTimeout := by
  unfold sendJson
  rw [Task.ofAttempt_bind]
  refine Task.within_bind_instant send_within fun r => ?_
  rw [Task.ofAttempt_ofExcept]
  exact Task.within_ofExcept _ 0

theorem isThere_within : (Task.ofAttempt (isThere context q)).Within Exchange.requestTimeout := by
  unfold isThere
  rw [Task.ofAttempt_bind]
  refine Task.within_bind_instant (Task.Within.ofAttempt_caught sendEmpty_within) fun r => ?_
  cases r with
  | ok _ => exact Task.within_pure _ 0
  | error e =>
    simp only
    split
    · exact Task.within_pure _ 0
    · exact Task.within_fail _ 0

end Http
end ForgeChores
