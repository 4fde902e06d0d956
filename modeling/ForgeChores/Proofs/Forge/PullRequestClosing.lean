import ForgeChores.Proofs.Forge.BranchUrl

/-!
# ForgeChores.Proofs.Forge.PullRequestClosing

The protocol by which a pull request is closed, the same on all forges.

The pull request is read, the branch that it reports as its source is deleted, and on some forges a
last request closes it. `PullClosing.Course` says which requests may be sent and what comes of them.

* `course_run`: the protocol takes one of its courses, whatever the server replies.
* `closePullRequest_eq_run`, for each forge: closing is the protocol with requests of its own.
* `closePullRequest_target`: the source branch is looked for by its name in the repository of the
  pull request. If it lies in another one, under the name of the target, the target is deleted.
-/

namespace ForgeChores

/-- What a forge asks to close a pull request. -/
structure PullClosing where
  lookUrl : Url
  lookContext : String
  decoder : Json.Decoder PullRequest
  branchUrl : String → Url
  removalContext : String → String
  /-- Whether nothing is deleted for a source branch without a name. -/
  sparesUnnamed : Bool
  /-- The context and the request of the closing, if it takes one. -/
  close : Option (String × Request)
  isHttp_branchUrl : ∀ branch, (branchUrl branch).isHttp = lookUrl.isHttp
  isHttp_close : ∀ c ∈ close, c.2.url.isHttp = lookUrl.isHttp
  close_ne_delete : ∀ c ∈ close, c.2.method ≠ .delete

namespace PullClosing

def look (p : PullClosing) : Request := .get p.lookUrl

def removal (p : PullClosing) (pull : PullRequest) : Request :=
  .delete (p.branchUrl pull.sourceBranch)

def closing (p : PullClosing) : List Request := (p.close.map Prod.snd).toList

def Removes (p : PullClosing) (pull : PullRequest) : Prop :=
  ¬ (p.sparesUnnamed = true ∧ pull.sourceBranch = "")

instance (p : PullClosing) (pull : PullRequest) : Decidable (p.Removes pull) :=
  inferInstanceAs (Decidable (¬ _))

/-! What the replies to the requests come to. -/

def pulled (p : PullClosing) (reply : Reply) : Except ForgeError PullRequest :=
  (Exchange.outcome p.lookContext p.look reply).2 >>= fun r => r.decode p.lookContext p.decoder

/-- A branch that is gone counts as removed. -/
def removed (p : PullClosing) (pull : PullRequest) (reply : Reply) :
    Except ForgeError (Option Unit) :=
  ForgeError.ignoreNotFound
    ((Exchange.outcome (p.removalContext pull.sourceBranch) (p.removal pull) reply).2.map
      fun _ => ())

def closed (p : PullClosing) (reply : Reply) : Except ForgeError Unit :=
  match p.close with
  | some (context, q) => (Exchange.outcome context q reply).2.map fun _ => ()
  | none => .ok ()

/-- The requests that are sent, and what comes of them. -/
inductive Course (p : PullClosing) (x : Exchange) :
    List Request → Except ForgeError Unit → Prop where
  | unread {e : ForgeError} : p.pulled (x.replyAt 0) = .error e → Course p x [p.look] (.error e)
  | kept {pull : PullRequest} {e : ForgeError} : p.pulled (x.replyAt 0) = .ok pull →
      p.Removes pull → p.removed pull (x.replyAt 1) = .error e →
      Course p x [p.look, p.removal pull] (.error e)
  | removed {pull : PullRequest} {gone : Option Unit} : p.pulled (x.replyAt 0) = .ok pull →
      p.Removes pull → p.removed pull (x.replyAt 1) = .ok gone →
      Course p x (p.look :: p.removal pull :: p.closing) (p.closed (x.replyAt 2))
  | spared {pull : PullRequest} : p.pulled (x.replyAt 0) = .ok pull → ¬ p.Removes pull →
      Course p x (p.look :: p.closing) (p.closed (x.replyAt 1))

/-! ## Running the protocol -/

def remove (p : PullClosing) (pull : PullRequest) : Task Exchange ForgeError (Option Unit) := do
  let gone ← Task.ofAttempt
    (Http.sendEmpty (p.removalContext pull.sourceBranch) (p.removal pull)).caught
  Task.ofExcept (ForgeError.ignoreNotFound gone)

def finish (p : PullClosing) : Task Exchange ForgeError Unit :=
  match p.close with
  | some (context, q) => Task.ofAttempt (Http.sendEmpty context q)
  | none => pure ()

/-- The protocol: a look, the removal of the source branch, and the closing. -/
def run (p : PullClosing) : Task Exchange ForgeError Unit := do
  let pull ← Task.ofAttempt (Http.sendJson p.lookContext p.decoder p.look)
  if p.Removes pull then
    p.remove pull >>= fun _ => p.finish
  else p.finish

variable {p : PullClosing} {x : Exchange} {pull : PullRequest}

theorem remove_eq_ask (hlook : p.lookUrl.isHttp = true) :
    p.remove pull = Task.ofAttempt (Http.ask (p.removal pull) (p.removed pull)) := by
  have hremoval : (p.removal pull).url.isHttp = true := (p.isHttp_branchUrl _).trans hlook
  unfold remove
  rw [Http.sendEmpty_eq_ask hremoval, Http.caught_ask]
  simp only [← Task.ofAttempt_ofExcept]
  rw [← Task.ofAttempt_bind, Http.ask_bind_ofExcept]
  rfl

theorem finish_apply (hlook : p.lookUrl.isHttp = true) (x : Exchange) :
    (p.finish x).result = p.closed (x.replyAt 0) ∧ (p.finish x).state = x.after p.closing := by
  unfold finish closed closing
  cases hclose : p.close with
  | none => exact ⟨rfl, x.after_nil.symm⟩
  | some c =>
    have hhttp : c.2.url.isHttp = true := (p.isHttp_close c hclose).trans hlook
    simp only
    rw [Http.sendEmpty_eq_ask hhttp, Http.ofAttempt_ask]
    exact ⟨rfl, rfl⟩

theorem course_run (hlook : p.lookUrl.isHttp = true) (x : Exchange) :
    ∃ sent, p.Course x sent (p.run x).result ∧ (p.run x).state = x.after sent := by
  have hask : Http.sendJson p.lookContext p.decoder p.look = Http.ask p.look p.pulled :=
    Http.sendJson_eq_ask hlook
  unfold run
  rw [hask]
  cases hpulled : p.pulled (x.replyAt 0) with
  | error e =>
    rw [(Http.ask_bind_of_error hpulled).1, (Http.ask_bind_of_error hpulled).2]
    exact ⟨_, .unread hpulled, rfl⟩
  | ok pull =>
    rw [(Http.ask_bind_of_ok hpulled).1, (Http.ask_bind_of_ok hpulled).2]
    by_cases hremoves : p.Removes pull
    · rw [if_pos hremoves, remove_eq_ask hlook]
      -- the removal meets the second reply
      have hreply : (x.after [p.look]).replyAt 0 = x.replyAt 1 := x.replyAt_after [p.look] 0
      cases hremoved : p.removed pull ((x.after [p.look]).replyAt 0) with
      | error e =>
        rw [(Http.ask_bind_of_error hremoved).1, (Http.ask_bind_of_error hremoved).2]
        rw [hreply] at hremoved
        exact ⟨_, .kept hpulled hremoves hremoved, Exchange.after_after x _ _⟩
      | ok gone =>
        rw [(Http.ask_bind_of_ok hremoved).1, (Http.ask_bind_of_ok hremoved).2,
          (finish_apply hlook _).1, (finish_apply hlook _).2, Exchange.after_after,
          Exchange.after_after, Exchange.replyAt_after]
        rw [hreply] at hremoved
        exact ⟨_, .removed hpulled hremoves hremoved, rfl⟩
    · rw [if_neg hremoves, (finish_apply hlook _).1, (finish_apply hlook _).2,
        Exchange.after_after, Exchange.replyAt_after]
      exact ⟨_, .spared hpulled hremoves, rfl⟩

theorem run_of_not_isHttp (hlook : ¬ p.lookUrl.isHttp = true) (x : Exchange) :
    ∃ e, p.run x = ⟨.error e, 0, x⟩ := by
  unfold run
  rw [Http.sendJson_bind, Http.send_of_not_isHttp hlook, Task.ofAttempt_fail, Task.fail_bind]
  exact ⟨_, rfl⟩

end PullClosing

/-! ## The forges -/

def GitHub.pullClosing (g : GitHub) (name : String) (number : Nat) : PullClosing where
  lookUrl := g.pullUrl (g.repo name) number []
  lookContext := Context.getPull number (g.repo name).fullPath
  decoder := pullRequest
  branchUrl := g.branchUrl (g.repo name) "git/refs"
  removalContext := fun branch => Context.deleteBranch branch (g.repo name).fullPath
  sparesUnnamed := false
  close := none
  isHttp_branchUrl _ := (Client.isHttp_repoUrl _ _ _).trans (Client.isHttp_repoUrl _ _ _).symm
  isHttp_close _ h := by cases h
  close_ne_delete _ h := by cases h

def GitLab.pullClosing (g : GitLab) (repo : String) (number : Nat) : PullClosing where
  lookUrl := g.mergeRequestUrl (g.project repo) number []
  lookContext := getContext number (g.project repo)
  decoder := mergeRequest
  branchUrl := g.branchUrl (g.project repo)
  removalContext := fun branch => Context.deleteBranch branch (g.project repo)
  sparesUnnamed := false
  close := some (closeContext number (g.project repo),
    .put (g.mergeRequestUrl (g.project repo) number [])
      (Json.object [("state_event", .string "close")]))
  isHttp_branchUrl _ := (Client.isHttp_projectUrl _ _ _).trans (Client.isHttp_projectUrl _ _ _).symm
  isHttp_close _ h := by
    cases h
    rfl
  close_ne_delete _ h := by
    cases h
    exact Method.noConfusion

def Forgejo.pullClosing (g : Forgejo) (name : String) (number : Nat) : PullClosing where
  lookUrl := g.pullUrl (g.repo name) number []
  lookContext := Context.getPull number (g.repo name).fullPath
  decoder := pullRequest
  branchUrl := g.branchUrl (g.repo name)
  removalContext := fun branch => Context.deleteBranch branch (g.repo name).fullPath
  sparesUnnamed := true
  close := some (Context.closePull number (g.repo name).fullPath,
    .patch (g.pullUrl (g.repo name) number []) (Json.object [("state", .string "closed")]))
  isHttp_branchUrl _ := (Client.isHttp_repoUrl _ _ _).trans (Client.isHttp_repoUrl _ _ _).symm
  isHttp_close _ h := by
    cases h
    rfl
  close_ne_delete _ h := by
    cases h
    exact Method.noConfusion

theorem PullClosing.ofAttempt_removal (p : PullClosing) (pull : PullRequest)
    (f : Attempt Exchange ForgeError Unit) :
    Task.ofAttempt (do
      let gone ← (Http.sendEmpty (p.removalContext pull.sourceBranch) (p.removal pull)).caught
      let _ ← Attempt.ofExcept (ForgeError.ignoreNotFound gone)
      f) = p.remove pull >>= fun _ => Task.ofAttempt f := by
  unfold remove
  rw [Task.ofAttempt_bind, Task.bind_assoc]
  refine congrArg _ (funext fun gone => ?_)
  rw [Task.ofAttempt_bind, Task.ofAttempt_ofExcept]

theorem GitHub.closePullRequest_eq_run (g : GitHub) (name : String) (number : Nat) :
    Task.ofAttempt (g.closePullRequest name number) = (g.pullClosing name number).run := by
  unfold closePullRequest PullClosing.run
  rw [Task.ofAttempt_bind]
  refine congrArg _ (funext fun pull => ?_)
  have hremoves : (g.pullClosing name number).Removes pull := fun h => Bool.false_ne_true h.1
  rw [if_pos hremoves]
  exact (g.pullClosing name number).ofAttempt_removal pull (pure ())

theorem GitLab.closePullRequest_eq_run (g : GitLab) (repo : String) (number : Nat) :
    Task.ofAttempt (g.closePullRequest repo number) = (g.pullClosing repo number).run := by
  unfold closePullRequest PullClosing.run
  rw [Task.ofAttempt_bind]
  refine congrArg _ (funext fun pull => ?_)
  have hremoves : (g.pullClosing repo number).Removes pull := fun h => Bool.false_ne_true h.1
  rw [if_pos hremoves]
  exact (g.pullClosing repo number).ofAttempt_removal pull _

theorem Forgejo.closePullRequest_eq_run (g : Forgejo) (name : String) (number : Nat) :
    Task.ofAttempt (g.closePullRequest name number) = (g.pullClosing name number).run := by
  unfold closePullRequest PullClosing.run
  rw [Task.ofAttempt_bind]
  refine congrArg _ (funext fun pull => ?_)
  by_cases hnamed : pull.sourceBranch = ""
  · have hremoves : ¬ (g.pullClosing name number).Removes pull := fun h => h ⟨rfl, hnamed⟩
    rw [if_neg hremoves, if_neg (not_not.mpr hnamed)]
    rfl
  · have hremoves : (g.pullClosing name number).Removes pull := fun h => hnamed h.2
    rw [if_pos hremoves, if_pos hnamed]
    exact (g.pullClosing name number).ofAttempt_removal pull _

/-! ## The target -/

namespace PullClosing

variable {p : PullClosing} {x : Exchange} {pull : PullRequest} {sent : List Request}
  {branch : String} {r : Except ForgeError Unit}

def SameUrl (p : PullClosing) (branch branch' : String) : Prop :=
  (p.branchUrl branch).withoutCredentials.text = (p.branchUrl branch').withoutCredentials.text

/-- One of the requests deletes the branch. -/
def Deletes (p : PullClosing) (sent : List Request) (branch : String) : Prop :=
  ∃ q ∈ sent, q.method = .delete ∧
    q.url.withoutCredentials.text = (p.branchUrl branch).withoutCredentials.text

theorem deletes_cons {q : Request} {qs : List Request} :
    p.Deletes (q :: qs) branch ↔ (q.method = .delete ∧
      q.url.withoutCredentials.text = (p.branchUrl branch).withoutCredentials.text) ∨
      p.Deletes qs branch := List.exists_mem_cons_iff _ _ _

theorem not_deletes_nil : ¬ p.Deletes [] branch := by
  rintro ⟨q, hq, -⟩
  cases hq

theorem not_deletes_closing : ¬ p.Deletes p.closing branch := by
  rintro ⟨q, hq, hmethod, -⟩
  rw [closing, Option.mem_toList, Option.map_eq_some_iff] at hq
  obtain ⟨c, hc, rfl⟩ := hq
  exact p.close_ne_delete c hc hmethod

theorem deletes_look {qs : List Request} :
    p.Deletes (p.look :: qs) branch ↔ p.Deletes qs branch := by
  rw [deletes_cons]
  exact or_iff_right fun h => Method.noConfusion h.1

theorem deletes_removal {qs : List Request} :
    p.Deletes (p.removal pull :: qs) branch ↔
      p.SameUrl pull.sourceBranch branch ∨ p.Deletes qs branch := by
  rw [deletes_cons]
  exact or_congr_left (and_iff_right rfl)

theorem pulled_eq_ok_iff {reply : Reply} :
    p.pulled reply = .ok pull ↔ reply.read? p.decoder = some pull :=
  Exchange.decoded_outcome_eq_ok_iff

theorem Course.deletes_iff (h : p.Course x sent r)
    (hread : (x.replyAt 0).read? p.decoder = some pull) :
    p.Deletes sent branch ↔ p.Removes pull ∧ p.SameUrl pull.sourceBranch branch := by
  have hpull : p.pulled (x.replyAt 0) = .ok pull := pulled_eq_ok_iff.mpr hread
  cases h with
  | unread hpulled =>
    rw [hpull] at hpulled
    cases hpulled
  | kept hpulled hremoves hremoved =>
    rw [hpull] at hpulled
    cases hpulled
    rw [deletes_look, deletes_removal, or_iff_left not_deletes_nil]
    exact (and_iff_right hremoves).symm
  | removed hpulled hremoves hremoved =>
    rw [hpull] at hpulled
    cases hpulled
    rw [deletes_look, deletes_removal, or_iff_left not_deletes_closing]
    exact (and_iff_right hremoves).symm
  | spared hpulled hremoves =>
    rw [hpull] at hpulled
    cases hpulled
    rw [deletes_look]
    exact iff_of_false not_deletes_closing fun h => hremoves h.1

/-- When closing a pull request deletes its target: exactly if the pull request can be read and its
source has the URL of the target. For branches whose names a path can hold it has the same name. -/
structure TargetLaw (p : PullClosing) (api : Client) (r : RepoPath) (x x' : Exchange) : Prop where
  deletes_iff : ∃ sent, x' = x.after sent ∧
    ∀ pull, (x.replyAt 0).read? p.decoder = some pull →
      (p.Deletes sent pull.targetBranch ↔ p.lookUrl.isHttp = true ∧ p.Removes pull ∧
        p.SameUrl pull.sourceBranch pull.targetBranch)
  same_iff : api.Connected → ∀ branch branch', Nameable r branch → Nameable r branch' →
    (p.SameUrl branch branch' ↔ branch = branch')

theorem targetLaw {api : Client} {r : RepoPath} {url : RepoPath → String → Url}
    {names : RepoPath → String → List String} (hnaming : BranchNaming api.base url names)
    (hurl : p.branchUrl = url r) (x : Exchange) : p.TargetLaw api r x (p.run x).state where
  deletes_iff := by
    by_cases hlook : p.lookUrl.isHttp = true
    · obtain ⟨sent, hcourse, hstate⟩ := course_run hlook x
      refine ⟨sent, hstate, fun pull hread => ?_⟩
      rw [hcourse.deletes_iff hread]
      exact (and_iff_right hlook).symm
    · obtain ⟨e, he⟩ := run_of_not_isHttp hlook x
      refine ⟨[], ?_, fun pull _ => ?_⟩
      · rw [he, Exchange.after_nil]
      · exact iff_of_false not_deletes_nil fun h => hlook h.1
  same_iff hapi branch branch' h h' := by
    unfold SameUrl
    rw [hurl]
    constructor
    · intro htext
      exact (hnaming.eq_of_text hapi.hasSegments h h' htext).2
    · rintro rfl
      rfl

end PullClosing

/-- Closing a pull request deletes its target exactly if the source that was read has its URL. -/
theorem closePullRequest_target (x : Exchange) (repo : String) (number : Nat) :
    (∀ g : GitHub, (g.pullClosing repo number).TargetLaw g.api (g.repo repo) x
      (g.forge.closePullRequest repo number x).state) ∧
    (∀ g : GitLab, (g.pullClosing repo number).TargetLaw g.api (.parse repo g.group) x
      (g.forge.closePullRequest repo number x).state) ∧
    ∀ g : Forgejo, (g.pullClosing repo number).TargetLaw g.api (g.repo repo) x
      (g.forge.closePullRequest repo number x).state := by
  refine ⟨fun g => ?_, fun g => ?_, fun g => ?_⟩
  · show PullClosing.TargetLaw _ _ _ x (Task.ofAttempt (g.closePullRequest repo number) x).state
    rw [g.closePullRequest_eq_run]
    exact PullClosing.targetLaw g.branchNaming rfl x
  · show PullClosing.TargetLaw _ _ _ x (Task.ofAttempt (g.closePullRequest repo number) x).state
    rw [g.closePullRequest_eq_run]
    exact PullClosing.targetLaw g.branchNaming rfl x
  · show PullClosing.TargetLaw _ _ _ x (Task.ofAttempt (g.closePullRequest repo number) x).state
    rw [g.closePullRequest_eq_run]
    exact PullClosing.targetLaw g.branchNaming rfl x

/-- A server with a pull request from the main branch of a fork. -/
def forkedPull : List Reply :=
  [.prompt [] ("\x7b\"number\":7,\"head\":\x7b\"ref\":\"main\",\"sha\":\"a\"," ++
      "\"repo\":\x7b\"full_name\":\"fork/r\"\x7d\x7d,\"base\":\x7b\"ref\":\"main\",\"sha\":\"b\"," ++
      "\"repo\":\x7b\"full_name\":\"o/r\"\x7d\x7d\x7d"),
    ⟨0, some ⟨204, [], some []⟩⟩, .prompt [] "\x7b\x7d"]

/-- There closing the pull request deletes the branch that it was made for. -/
theorem closePullRequest_of_fork :
    ∃ pull sent, (Exchange.replyAt ⟨forkedPull, #[]⟩ 0).read? Forgejo.pullRequest = some pull ∧
      (publicForgejo.forge.closePullRequest "o/r" 7 ⟨forkedPull, #[]⟩).state =
        (Exchange.mk forkedPull #[]).after sent ∧
      (publicForgejo.pullClosing "o/r" 7).Deletes sent pull.targetBranch := by
  have hread : (Exchange.replyAt ⟨forkedPull, #[]⟩ 0).read? Forgejo.pullRequest =
      some ⟨7, "main", "main", "a", ""⟩ := by
    decide +kernel
  obtain ⟨sent, hcourse, hstate⟩ := PullClosing.course_run
    (p := publicForgejo.pullClosing "o/r" 7) (by decide) ⟨forkedPull, #[]⟩
  have hremoves : (publicForgejo.pullClosing "o/r" 7).Removes ⟨7, "main", "main", "a", ""⟩ := by
    decide
  refine ⟨_, sent, hread, ?_, (hcourse.deletes_iff hread).mpr ⟨hremoves, rfl⟩⟩
  rw [← hstate, ← publicForgejo.closePullRequest_eq_run]
  rfl

end ForgeChores
