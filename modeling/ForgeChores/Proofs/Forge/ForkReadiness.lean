import ForgeChores.Forge.GitHub
import ForgeChores.Proofs.Http.Awaiting

/-!
# ForgeChores.Proofs.Forge.ForkReadiness

How GitHub makes a fork: it is asked for until it is accepted or refused for good, and once it is
accepted its commits are looked at until there is one.

Some failures may pass (`MayPass`), and only after one of these is the fork asked for again. So each
reply to the request settles by itself whether the fork is accepted, refused, or still open
(`settled?`), and `ForkCourse` says with the replies alone which requests are sent, what comes of
them and when. A refusal leaves the first wait as a value; it is told from an acceptance only behind
it, before the second wait begins.

* `course_awaitCommits`, `course_forkRepository`: a fork takes one of these courses, whatever the
  server replies.
* `forkRepository_of_not_isHttp`: a server that is not spoken to with HTTP is never asked.
* `forkRepository_phases`: both together.
-/

namespace ForgeChores

/-- A failure that may pass: a transient one, or a refusal with 403 that says nothing more
definite. -/
inductive MayPass : ForgeError → Prop where
  | transient {context message : String} : MayPass (.transient context message)
  | forbidden {context message : String} : MayPass (.provider context (some 403) message)

theorem mayPass_iff {e : ForgeError} :
    MayPass e ↔ (e.isTransient || e.status? == some 403) = true := by
  constructor
  · intro h
    cases h with
    | transient => rfl
    | forbidden => rfl
  · intro h
    cases e with
    | transient context message => exact .transient
    | provider context status message =>
      obtain rfl : status = some 403 := by simpa [ForgeError.isTransient, ForgeError.kind,
        ForgeError.status?] using h
      exact .forbidden
    | _ => simp [ForgeError.isTransient, ForgeError.kind, ForgeError.status?] at h

instance : DecidablePred MayPass := fun _ => decidable_of_iff _ mayPass_iff.symm

namespace GitHub

/-! ## Requests and replies -/

def forkContext (g : GitHub) (source target : String) : String :=
  Context.fork (g.repo source).fullPath (g.repo target).fullPath

def forkRequest (g : GitHub) (source target : String) : Request :=
  .post (g.api.repoUrl (g.repo source) ["forks"])
    (Json.object [("organization", .string (g.repo target).owner),
      ("name", .string (g.repo target).name), ("default_branch_only", .bool false)])

def commitsRequest (g : GitHub) (target : String) : Request :=
  .get ((g.api.repoUrl (g.repo target) ["commits"]).addQuery "per_page" "1")

/-- What a reply to the request for the fork comes to. -/
def granted (g : GitHub) (source target : String) (reply : Reply) : Except ForgeError Unit :=
  (Exchange.outcome (g.forkContext source target) (g.forkRequest source target) reply).2.map
    fun _ => ()

/-- Whether a reply accepts the fork or refuses it for good. A failure that may pass does neither. -/
def settled? (g : GitHub) (source target : String) (reply : Reply) :
    Option (Except ForgeError Unit) :=
  match g.granted source target reply with
  | .ok () => some (.ok ())
  | .error e => if MayPass e then none else some (.error e)

/-- Whether a reply reports a commit of the fork. -/
def committed? (reply : Reply) : Option Unit :=
  (reply.read? (.list commitSha)).bind fun commits => if commits.isEmpty then none else some ()

/-- What is sent to make a fork, what comes of it and after which time. -/
inductive ForkCourse (g : GitHub) (source target : String) (x : Exchange) :
    List Request → Except ForgeError Unit → Nat → Prop where
  /-- No reply settles the fork in time. -/
  | unsettled {n time : Nat} {t : WaitTimeout} :
      Http.Unanswered (g.forkContext source target ++ " to be accepted") g.timeouts.fork
        (g.settled? source target) 0 x.replyAt n t time →
      ForkCourse g source target x (List.replicate (n + 1) (g.forkRequest source target))
        (.error (.timeout t)) time
  /-- The first that does refuses it. -/
  | refused {n time : Nat} {e : ForgeError} :
      Http.AnsweredBy g.timeouts.fork (g.settled? source target) 0 x.replyAt n (.error e) time →
      ForkCourse g source target x (List.replicate (n + 1) (g.forkRequest source target))
        (.error e) time
  /-- It accepts the fork, and a look at its commits finds one. -/
  | ready {n m accepted time : Nat} :
      Http.AnsweredBy g.timeouts.fork (g.settled? source target) 0 x.replyAt n (.ok ()) accepted →
      Http.AnsweredBy g.timeouts.forkReady committed? 0 (fun i => x.replyAt (n + 1 + i)) m () time →
      ForkCourse g source target x
        (List.replicate (n + 1) (g.forkRequest source target) ++
          List.replicate (m + 1) (g.commitsRequest target))
        (.ok ()) (accepted + time)
  /-- It accepts the fork, and no look finds a commit in time. -/
  | unready {n m accepted time : Nat} {t : WaitTimeout} :
      Http.AnsweredBy g.timeouts.fork (g.settled? source target) 0 x.replyAt n (.ok ()) accepted →
      Http.Unanswered (g.forkContext source target ++ " to be ready") g.timeouts.forkReady
        committed? 0 (fun i => x.replyAt (n + 1 + i)) m t time →
      ForkCourse g source target x
        (List.replicate (n + 1) (g.forkRequest source target) ++
          List.replicate (m + 1) (g.commitsRequest target))
        (.error (.timeout t)) (accepted + time)

variable {g : GitHub} {source target : String} {x : Exchange}

/-! ## The two waits -/

/-- What an answer to the request for the fork is to the wait: a failure that may pass stays one, and
any other is an outcome. -/
def verdict : Except ForgeError Unit → Except ForgeError (Option (Except ForgeError Unit))
  | .ok () => .ok (some (.ok ()))
  | .error e => if e.isTransient || e.status? == some 403 then .error e else .ok (some (.error e))

/-- What a reply to a look at the commits comes to. -/
def committed (g : GitHub) (source target : String) (reply : Reply) :
    Except ForgeError (Option Unit) :=
  ((Exchange.outcome (g.forkContext source target) (g.commitsRequest target) reply).2 >>=
    fun r => r.decode (g.forkContext source target) (.list commitSha)).map fun commits =>
      if commits.isEmpty then none else some ()

theorem outcome?_verdict (g : GitHub) (source target : String) :
    (fun reply => Http.outcome? (verdict (g.granted source target reply))) =
      g.settled? source target := by
  funext reply
  unfold settled?
  cases g.granted source target reply with
  | ok _ => rfl
  | error e =>
    by_cases hpass : MayPass e
    · simp only [verdict, mayPass_iff.mp hpass, if_true, if_pos hpass]
      rfl
    · simp only [verdict, mt mayPass_iff.mpr hpass, if_neg hpass]
      rfl

theorem outcome?_committed (g : GitHub) (source target : String) :
    (fun reply => Http.outcome? (g.committed source target reply)) = committed? := by
  funext reply
  exact Http.outcome?_decoded _ reply

theorem requestFork_eq (context : String) (q : Request) :
    requestFork context q =
      (Http.sendEmpty context q).caught >>= fun r => Attempt.ofExcept (verdict r) := by
  unfold requestFork
  refine congrArg _ (funext fun r => ?_)
  cases r with
  | ok _ => rfl
  | error e =>
    simp only [verdict]
    split <;> rfl

theorem requestFork_eq_ask (hbase : g.api.base.isHttp = true) :
    requestFork (g.forkContext source target) (g.forkRequest source target) =
      Http.ask (g.forkRequest source target)
        fun reply => verdict (g.granted source target reply) := by
  have hrequest : (g.forkRequest source target).url.isHttp = true :=
    (Client.isHttp_repoUrl _ _ _).trans hbase
  rw [requestFork_eq, Http.sendEmpty_eq_ask hrequest, Http.caught_ask, Http.ask_bind_ofExcept]
  rfl

/-- Elsewhere than with HTTP the request is refused for good before it is sent. -/
theorem requestFork_of_not_isHttp (hbase : ¬ g.api.base.isHttp = true) (source target : String) :
    ∃ e, requestFork (g.forkContext source target) (g.forkRequest source target) =
      pure (some (.error e)) := by
  have hrequest : ¬ (g.forkRequest source target).url.isHttp = true := by
    intro hhttp
    exact hbase ((Client.isHttp_repoUrl _ _ _).symm.trans hhttp)
  rw [requestFork_eq, Http.sendEmpty, Http.send_of_not_isHttp hrequest]
  exact ⟨_, rfl⟩

def looking (g : GitHub) (source target : String) : Attempt Exchange ForgeError (Option Unit) := do
  let commits ← Http.sendJson (g.forkContext source target) (.list commitSha)
    (g.commitsRequest target)
  return if commits.isEmpty then none else some ()

theorem looking_eq_ask (hbase : g.api.base.isHttp = true) :
    g.looking source target =
      Http.ask (g.commitsRequest target) (g.committed source target) := by
  have hrequest : (g.commitsRequest target).url.isHttp = true :=
    (Url.isHttp_addQuery _ _ _).trans ((Client.isHttp_repoUrl _ _ _).trans hbase)
  unfold looking
  rw [Http.sendJson_eq_ask hrequest]
  exact Http.ask_bind_pure _

/-- Looks at the commits of the fork until there is one. -/
def awaitCommits (g : GitHub) (source target : String) : Task Exchange ForgeError Unit :=
  Wait.on (g.forkContext source target ++ " to be ready") g.timeouts.forkReady
    (g.looking source target)

theorem forkRepository_eq (g : GitHub) (source target : String) :
    g.forkRepository source target =
      Wait.on (g.forkContext source target ++ " to be accepted") g.timeouts.fork
          (requestFork (g.forkContext source target) (g.forkRequest source target)) >>=
        fun settled => Task.ofExcept settled >>= fun _ => g.awaitCommits source target := rfl

/-! ## The whole fork -/

/-- What follows once the fork has been accepted. -/
theorem course_awaitCommits (hbase : g.api.base.isHttp = true) {n accepted : Nat}
    (haccepted : Http.AnsweredBy g.timeouts.fork (g.settled? source target) 0 x.replyAt n (.ok ())
      accepted) :
    let t := g.awaitCommits source target
      (x.after (List.replicate (n + 1) (g.forkRequest source target)))
    ∃ sent, ForkCourse g source target x sent t.result (accepted + t.elapsed) ∧
      t.state = x.after sent := by
  obtain ⟨m, hgets, hcommitted⟩ := Http.on_ask_after
    (g.forkContext source target ++ " to be ready") g.timeouts.forkReady (g.commitsRequest target)
    (g.committed source target) x (List.replicate (n + 1) (g.forkRequest source target))
  rw [outcome?_committed, List.length_replicate] at hcommitted
  unfold awaitCommits
  rw [looking_eq_ask hbase]
  rcases hcommitted with ⟨_, hresult, hready⟩ | ⟨t, hresult, hunready⟩
  · simp only [hresult]
    exact ⟨_, .ready haccepted hready, hgets⟩
  · simp only [hresult]
    exact ⟨_, .unready haccepted hunready, hgets⟩

theorem course_forkRepository (hbase : g.api.base.isHttp = true) (source target : String)
    (x : Exchange) :
    ∃ sent, ForkCourse g source target x sent (g.forkRepository source target x).result
        (g.forkRepository source target x).elapsed ∧
      (g.forkRepository source target x).state = x.after sent := by
  rw [forkRepository_eq, requestFork_eq_ask hbase]
  obtain ⟨n, hposts, hsettled⟩ := Http.on_ask (g.forkContext source target ++ " to be accepted")
    g.timeouts.fork (g.forkRequest source target)
    (fun reply => verdict (g.granted source target reply)) x
  rw [outcome?_verdict] at hsettled
  generalize Wait.on (g.forkContext source target ++ " to be accepted") g.timeouts.fork
    (Http.ask (g.forkRequest source target) fun reply => verdict (g.granted source target reply)) =
      asking at hposts hsettled ⊢
  rcases hfirst : asking x with ⟨r, spent, x'⟩
  rw [hfirst] at hposts hsettled
  obtain rfl : x' = _ := hposts
  rcases hsettled with ⟨settled, rfl, hanswered⟩ | ⟨t, rfl, hunanswered⟩
  · rw [Task.bind_of_ok hfirst]
    cases settled with
    | error e =>
      -- the refusal has left the wait as a value and is the failure of the fork
      rw [Task.ofExcept_error_bind]
      exact ⟨_, .refused hanswered, rfl⟩
    | ok _ =>
      rw [Task.ofExcept_ok_bind]
      exact course_awaitCommits hbase hanswered
  · rw [Task.bind_of_error hfirst]
    exact ⟨_, .unsettled hunanswered, rfl⟩

theorem forkRepository_of_not_isHttp (hbase : ¬ g.api.base.isHttp = true) (source target : String)
    (x : Exchange) : ∃ e, g.forkRepository source target x = ⟨.error e, 0, x⟩ := by
  obtain ⟨e, he⟩ := requestFork_of_not_isHttp hbase source target
  rw [forkRepository_eq, he, Task.bind_of_ok (Http.on_pure _ _ _ x), Task.ofExcept_error_bind]
  exact ⟨e, rfl⟩

/-- A fork is asked for again only after a failure that may pass, or one that comes too late to be
seen; any other failure ends it. Once it is accepted its commits are looked at and nothing else is
asked for, until a reply in time reports one. What is still open at a deadline is given up there, and
then the text says which of the two was waited for. -/
theorem forkRepository_phases (g : GitHub) (source target : String) (x : Exchange) :
    let t := g.forge.forkRepository source target x
    if g.api.base.isHttp = true then
      ∃ sent, ForkCourse g source target x sent t.result t.elapsed ∧ t.state = x.after sent
    else ∃ e, t = ⟨.error e, 0, x⟩ := by
  intro t
  by_cases hbase : g.api.base.isHttp = true
  · rw [if_pos hbase]
    exact course_forkRepository hbase source target x
  · rw [if_neg hbase]
    exact forkRepository_of_not_isHttp hbase source target x

end GitHub
end ForgeChores
