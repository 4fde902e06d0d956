import ForgeChores.Forge.Forgejo
import ForgeChores.Forge.GitHub
import ForgeChores.Forge.GitLab
import ForgeChores.Proofs.Forge.Connected
import ForgeChores.Proofs.Http.Awaiting
import ForgeChores.Proofs.Json.Record

/-!
# ForgeChores.Proofs.Forge.BranchCreation

The protocol by which a branch is made, the same on all forges.

`BranchMaking` holds what a forge asks and how it takes the answers, `BranchMaking.Course` says which
requests may be sent, in which order, and what comes of them: a look at the base, one request for the
branch, and looks for the new branch until it is seen or the wait is over.

* `course_run`: the protocol takes one of its courses, whatever the server replies.
* `createBranch_eq_run`, for each forge: making a branch is the protocol with requests of its own.
* `GitHub.tip_eq_ok_iff`: on GitHub the tip of the base is read out of the answer that reports it.
-/

namespace ForgeChores

/-- What a forge asks to make a branch, and how it takes the answers. -/
structure BranchMaking where
  branch : String
  repo : String
  /-- What the branch starts from; if empty, from the tip of the base. -/
  revision : String
  options : WaitOptions
  look : Request
  /-- The tip of the base, by the answer to `look`. -/
  tip : Response → Except ForgeError String
  /-- Makes the branch from what it starts from. -/
  make : (origin : String) → Request
  /-- Whether a success is what `make` should be answered. -/
  accept : Response → Except ForgeError Unit
  see : Request

namespace BranchMaking

def context (p : BranchMaking) : String := Context.createBranch p.branch p.repo

def origin (p : BranchMaking) (tip : String) : String := if p.revision = "" then tip else p.revision

/-! What the replies to the three requests come to. -/

def based (p : BranchMaking) (reply : Reply) : Except ForgeError String :=
  (Exchange.outcome p.context p.look reply).2 >>= p.tip

def made (p : BranchMaking) (tip : String) (reply : Reply) : Except ForgeError Unit :=
  (Exchange.outcome p.context (p.make (p.origin tip)) reply).2 >>= p.accept

def seen (p : BranchMaking) (reply : Reply) : Except ForgeError (Option Unit) :=
  (Http.there ((Exchange.outcome (Context.checkBranch p.branch p.repo) p.see reply).2.map
    fun _ => ())).map fun isThere => if isThere then some () else none

/-- The requests that are sent, and what comes of them. -/
inductive Course (p : BranchMaking) (x : Exchange) :
    List Request → Except ForgeError Unit → Prop where
  | baseless {e : ForgeError} : p.based (x.replyAt 0) = .error e → Course p x [p.look] (.error e)
  | refused {tip : String} {e : ForgeError} : p.based (x.replyAt 0) = .ok tip →
      p.made tip (x.replyAt 1) = .error e →
      Course p x [p.look, p.make (p.origin tip)] (.error e)
  | seen {tip : String} {answer r : Response} {n : Nat} : p.based (x.replyAt 0) = .ok tip →
      (x.replyAt 1).success? = some answer → p.accept answer = .ok () →
      (x.replyAt (n + 2)).success? = some r →
      Course p x (p.look :: p.make (p.origin tip) :: List.replicate (n + 1) p.see) (.ok ())
  | unseen {tip : String} {answer : Response} {n : Nat} {t : WaitTimeout} :
      p.based (x.replyAt 0) = .ok tip → (x.replyAt 1).success? = some answer →
      p.accept answer = .ok () → t.what = Context.branchToExist p.branch p.repo →
      t.timeout = p.options.timeout →
      Course p x (p.look :: p.make (p.origin tip) :: List.replicate (n + 1) p.see)
        (.error (.timeout t))

/-- Making the branch takes one of the courses; elsewhere than with HTTP nothing is sent. -/
def Follows (p : BranchMaking) (x : Exchange) (t : Timed Exchange (Except ForgeError Unit)) : Prop :=
  if p.look.url.isHttp then ∃ sent, p.Course x sent t.result ∧ t.state = x.after sent
  else t.state = x ∧ ∃ e, t.result = .error e

/-- The protocol: a look at the base, the request for the branch, and its confirmation. -/
def run (p : BranchMaking) : Task Exchange ForgeError Unit := do
  let answer ← Task.ofAttempt (Http.send p.context p.look)
  let tip ← Task.ofExcept (p.tip answer)
  let answer ← Task.ofAttempt (Http.send p.context (p.make (p.origin tip)))
  Task.ofExcept (p.accept answer)
  awaitBranch p.branch p.repo p.options
    (Http.isThere (Context.checkBranch p.branch p.repo) p.see)

theorem success_of_seen {p : BranchMaking} {reply : Reply} {a : Unit}
    (h : p.seen reply = .ok (some a)) : ∃ r, reply.success? = some r := by
  unfold seen at h
  cases hout : (Exchange.outcome (Context.checkBranch p.branch p.repo) p.see reply).2 with
  | ok r => exact ⟨r, Exchange.outcome_eq_ok_iff.mp hout⟩
  | error e =>
    -- a failure is no branch, whether it says so or not
    rw [hout] at h
    by_cases he : e.isNotFound = true
    · simp [Except.map, Http.there, he] at h
    · simp [Except.map, Http.there, he] at h

theorem success_of_made {p : BranchMaking} {tip : String} {reply : Reply}
    (h : p.made tip reply = .ok ()) :
    ∃ answer, reply.success? = some answer ∧ p.accept answer = .ok () := by
  obtain ⟨answer, hanswer, haccept⟩ := except_bind_eq_ok.mp h
  exact ⟨answer, Exchange.outcome_eq_ok_iff.mp hanswer, haccept⟩

theorem course_of_made {p : BranchMaking} {x : Exchange} {tip : String}
    (hbased : p.based (x.replyAt 0) = .ok tip) (hmade : p.made tip (x.replyAt 1) = .ok ()) :
    ∃ sent, p.Course x sent
        (Wait.on (Context.branchToExist p.branch p.repo) p.options (Http.ask p.see p.seen)
          (x.after [p.look, p.make (p.origin tip)])).result ∧
      (Wait.on (Context.branchToExist p.branch p.repo) p.options (Http.ask p.see p.seen)
        (x.after [p.look, p.make (p.origin tip)])).state = x.after sent := by
  obtain ⟨answer, hanswer, haccept⟩ := success_of_made hmade
  obtain ⟨n, hstate, hresult⟩ := Http.on_ask_after (Context.branchToExist p.branch p.repo) p.options
    p.see p.seen x [p.look, p.make (p.origin tip)]
  refine ⟨_, ?_, hstate⟩
  rcases hresult with ⟨a, hok, hanswered⟩ | ⟨t, herror, hunanswered⟩
  · obtain ⟨r, hr⟩ := success_of_seen (Http.outcome?_eq_some_iff.mp hanswered.answer)
    rw [List.length_cons, List.length_singleton, Nat.add_comm] at hr
    rw [hok]
    exact .seen hbased hanswer haccept hr
  · rw [herror]
    exact .unseen hbased hanswer haccept hunanswered.what hunanswered.timeout

theorem awaitBranch_eq_on {p : BranchMaking} (hsee : p.see.url.isHttp = true) :
    awaitBranch p.branch p.repo p.options
        (Http.isThere (Context.checkBranch p.branch p.repo) p.see) =
      Wait.on (Context.branchToExist p.branch p.repo) p.options (Http.ask p.see p.seen) := by
  unfold awaitBranch
  rw [Http.isThere_eq_ask hsee]
  exact congrArg _ (Http.ask_bind_pure _)

theorem run_eq_asks {p : BranchMaking} (hlook : p.look.url.isHttp = true)
    (hmake : ∀ origin, (p.make origin).url.isHttp = true) (hsee : p.see.url.isHttp = true) :
    p.run = Task.ofAttempt (Http.ask p.look p.based) >>= fun tip =>
      Task.ofAttempt (Http.ask (p.make (p.origin tip)) (p.made tip)) >>= fun _ =>
        Wait.on (Context.branchToExist p.branch p.repo) p.options (Http.ask p.see p.seen) := by
  unfold run
  rw [awaitBranch_eq_on hsee, Http.send_bind_ofExcept hlook]
  simp only [Http.send_bind_ofExcept (hmake _)]
  rfl

theorem course_run {p : BranchMaking} (hlook : p.look.url.isHttp = true)
    (hmake : ∀ origin, (p.make origin).url.isHttp = true) (hsee : p.see.url.isHttp = true)
    (x : Exchange) : ∃ sent, p.Course x sent (p.run x).result ∧ (p.run x).state = x.after sent := by
  rw [run_eq_asks hlook hmake hsee]
  cases hbased : p.based (x.replyAt 0) with
  | error e =>
    rw [(Http.ask_bind_of_error hbased).1, (Http.ask_bind_of_error hbased).2]
    exact ⟨_, .baseless hbased, rfl⟩
  | ok tip =>
    rw [(Http.ask_bind_of_ok hbased).1, (Http.ask_bind_of_ok hbased).2]
    -- the request for the branch meets the second reply
    have hreply : (x.after [p.look]).replyAt 0 = x.replyAt 1 := x.replyAt_after [p.look] 0
    cases hmade : p.made tip (x.replyAt 1) with
    | error e =>
      have hmade' : p.made tip ((x.after [p.look]).replyAt 0) = .error e := by rw [hreply, hmade]
      rw [(Http.ask_bind_of_error hmade').1, (Http.ask_bind_of_error hmade').2]
      exact ⟨_, .refused hbased hmade, Exchange.after_after x _ _⟩
    | ok _ =>
      have hmade' : p.made tip ((x.after [p.look]).replyAt 0) = .ok () := by rw [hreply, hmade]
      rw [(Http.ask_bind_of_ok hmade').1, (Http.ask_bind_of_ok hmade').2, Exchange.after_after]
      exact course_of_made hbased hmade

theorem follows_run {p : BranchMaking}
    (hmake : ∀ origin, (p.make origin).url.isHttp = p.look.url.isHttp)
    (hsee : p.see.url.isHttp = p.look.url.isHttp) (x : Exchange) : p.Follows x (p.run x) := by
  unfold Follows
  by_cases hlook : p.look.url.isHttp = true
  · rw [if_pos hlook]
    exact course_run hlook (fun origin => (hmake origin).trans hlook) (hsee.trans hlook) x
  · rw [if_neg hlook, run, Http.send_of_not_isHttp hlook, Task.ofAttempt_fail, Task.fail_bind]
    exact ⟨rfl, _, rfl⟩

end BranchMaking

/-! ## The forges -/

def GitHub.branchMaking (g : GitHub) (name base revision branch : String) : BranchMaking where
  branch := branch
  repo := (g.repo name).fullPath
  revision := revision
  options := g.timeouts.branch
  look := .get (g.branchUrl (g.repo name) "git/ref" base)
  tip := fun answer => answer.decode (Context.createBranch branch (g.repo name).fullPath) gitRef
  make := fun origin => .post (g.api.repoUrl (g.repo name) ["git/refs"])
    (Json.object [("ref", .string ("refs/heads/" ++ branch)), ("sha", .string origin)])
  accept := fun _ => .ok ()
  see := .get (g.branchUrl (g.repo name) "git/ref" branch)

def GitLab.branchMaking (g : GitLab) (name base revision branch : String) : BranchMaking where
  branch := branch
  repo := g.project name
  revision := revision
  options := g.timeouts.branch
  look := .get (g.branchUrl (g.project name) base)
  tip := fun _ => .ok base
  make := fun origin => .post ((g.api.projectUrl (g.project name) ["repository", "branches"]).addQueries
    [("branch", branch), ("ref", origin)]) none
  accept := fun _ => .ok ()
  see := .get (g.branchUrl (g.project name) branch)

/-- Nothing but 201 tells that the branch was made. -/
def Forgejo.branchMaking (g : Forgejo) (name base revision branch : String) : BranchMaking where
  branch := branch
  repo := (g.repo name).fullPath
  revision := revision
  options := g.timeouts.branch
  look := .get (g.branchUrl (g.repo name) base)
  tip := fun _ => .ok base
  make := fun origin => .post (g.api.repoUrl (g.repo name) ["branches"])
    (Json.object [("new_branch_name", .string branch), ("old_ref_name", .string origin)])
  accept := fun answer =>
    if answer.status = 201 then .ok ()
    else
      .error (.provider (Context.createBranch branch (g.repo name).fullPath) (some answer.status)
        "branch creation did not answer 201 Created")
  see := .get (g.branchUrl (g.repo name) branch)

/-- A reference to the commit of this hash. -/
def GitHub.RefersTo (sha : String) (w : Json.Written) : Prop :=
  ∃ object name, w.Spells [("object", some object)] ∧ object.Spells [("sha", some name)] ∧
    name.IsText sha

theorem commitSha_eq_some_iff {w : Json.Written} {sha : String} :
    commitSha w = some sha ↔ ∃ name, w.Spells [("sha", some name)] ∧ name.IsText sha := by
  rw [commitSha, Json.record_eq_some_iff (Json.Fields.takes_required _ _)]
  simp only [Json.Decoder.text_eq_some_iff]
  constructor
  · rintro ⟨_, hw, name, rfl, hname⟩
    exact ⟨name, hw, hname⟩
  · rintro ⟨name, hw, hname⟩
    exact ⟨_, hw, name, rfl, hname⟩

theorem GitHub.gitRef_eq_some_iff (w : Json.Written) (sha : String) :
    gitRef w = some sha ↔ RefersTo sha w := by
  rw [gitRef, Json.record_eq_some_iff (Json.Fields.takes_required _ _)]
  simp only [commitSha_eq_some_iff]
  constructor
  · rintro ⟨_, hw, object, rfl, name, hobject, hname⟩
    exact ⟨object, name, hw, hobject, hname⟩
  · rintro ⟨object, name, hw, hobject, hname⟩
    exact ⟨_, hw, object, rfl, name, hobject, hname⟩

theorem GitHub.tip_eq_ok_iff (g : GitHub) (name base revision branch : String) {answer : Response}
    {sha : String} :
    (g.branchMaking name base revision branch).tip answer = .ok sha ↔ answer.Says (RefersTo sha) :=
  Response.decode_eq_ok_iff_says gitRef_eq_some_iff

theorem GitHub.createBranch_eq_run (g : GitHub) (name base revision branch : String) :
    g.createBranch name base revision branch = (g.branchMaking name base revision branch).run := by
  unfold createBranch BranchMaking.run
  simp only [Task.liftM_eq_ofAttempt, Http.sendJson_bind, Http.sendEmpty_bind]
  simp only [branchMaking, Task.ofExcept_ok_bind]
  rfl

theorem GitLab.createBranch_eq_run (g : GitLab) (name base revision branch : String) :
    g.createBranch name base revision branch = (g.branchMaking name base revision branch).run := by
  unfold createBranch BranchMaking.run
  simp only [Task.liftM_eq_ofAttempt, Http.sendEmpty_bind]
  simp only [branchMaking, Task.ofExcept_ok_bind]
  rfl

theorem Forgejo.createBranch_eq_run (g : Forgejo) (name base revision branch : String) :
    g.createBranch name base revision branch = (g.branchMaking name base revision branch).run := by
  unfold createBranch BranchMaking.run
  simp only [Task.liftM_eq_ofAttempt, Http.sendEmpty_bind]
  simp only [branchMaking, Task.ofExcept_ok_bind]
  refine congrArg _ (funext fun _ => congrArg _ (funext fun answer => ?_))
  by_cases h : answer.status = 201
  · simp only [h, ne_eq, not_true_eq_false, if_false, if_true, Task.ofExcept_ok_bind]
    rfl
  · simp only [h, ne_eq, not_false_eq_true, if_false, if_true, Task.ofExcept_error_bind,
      Task.fail_bind]

/-- Making a branch follows the protocol on every forge, whatever the server replies. On GitHub the
tip of the base is what the answer to the look refers to. -/
theorem createBranch_protocol (x : Exchange) (repo base revision branch : String) :
    (∀ g : GitHub, (g.branchMaking repo base revision branch).Follows x
        (g.forge.createBranch repo base revision branch x) ∧
      ∀ answer sha, (g.branchMaking repo base revision branch).tip answer = .ok sha ↔
        answer.Says (GitHub.RefersTo sha)) ∧
    (∀ g : GitLab, (g.branchMaking repo base revision branch).Follows x
      (g.forge.createBranch repo base revision branch x)) ∧
    ∀ g : Forgejo, (g.branchMaking repo base revision branch).Follows x
      (g.forge.createBranch repo base revision branch x) := by
  refine ⟨fun g => ⟨?_, fun _ _ => g.tip_eq_ok_iff repo base revision branch⟩, fun g => ?_,
    fun g => ?_⟩
  · show BranchMaking.Follows _ x (g.createBranch repo base revision branch x)
    rw [g.createBranch_eq_run]
    refine BranchMaking.follows_run (fun _ => ?_) ?_ x
    · exact (Client.isHttp_repoUrl _ _ _).trans (Client.isHttp_repoUrl _ _ _).symm
    · exact (Client.isHttp_repoUrl _ _ _).trans (Client.isHttp_repoUrl _ _ _).symm
  · show BranchMaking.Follows _ x (g.createBranch repo base revision branch x)
    rw [g.createBranch_eq_run]
    refine BranchMaking.follows_run (fun _ => ?_) ?_ x
    · refine (Url.isHttp_addQueries _ _).trans ?_
      exact (Client.isHttp_projectUrl _ _ _).trans (Client.isHttp_projectUrl _ _ _).symm
    · exact (Client.isHttp_projectUrl _ _ _).trans (Client.isHttp_projectUrl _ _ _).symm
  · show BranchMaking.Follows _ x (g.createBranch repo base revision branch x)
    rw [g.createBranch_eq_run]
    refine BranchMaking.follows_run (fun _ => ?_) ?_ x
    · exact (Client.isHttp_repoUrl _ _ _).trans (Client.isHttp_repoUrl _ _ _).symm
    · exact (Client.isHttp_repoUrl _ _ _).trans (Client.isHttp_repoUrl _ _ _).symm

/-- What GitHub says of the base. -/
def mainHead : String :=
  "\x7b\"ref\":\"refs/heads/main\",\"object\":\x7b\"type\":\"commit\",\"sha\":\"c0ffee\"\x7d\x7d"

/-- A server that finds the base, makes the branch and shows it at the second look. -/
def madeFromMain : List Reply :=
  [.prompt [] mainHead, ⟨0, some ⟨201, [], some []⟩⟩, ⟨0, some ⟨404, [], some []⟩⟩, .prompt [] ""]

/-- There the branch starts from the commit that the base is reported at, from the base by its name,
and from a revision that is given. -/
theorem createBranch_protocol_fromMain :
    let x : Exchange := ⟨madeFromMain, #[]⟩
    let onGitHub := publicGitHub.forge.createBranch "o/r" "main" "" "feat" x
    let onGitLab := publicGitLab.forge.createBranch "o/r" "main" "" "feat" x
    let onForgejo := publicForgejo.forge.createBranch "o/r" "main" "b0ba" "feat" x
    (publicGitHub.branchMaking "o/r" "main" "" "feat").Follows x onGitHub ∧
    (publicGitHub.branchMaking "o/r" "main" "" "feat").tip (.success [] mainHead) = .ok "c0ffee" ∧
    onGitHub.result = .ok () ∧
    onGitHub.state.sent.toList.map Request.shown = [
      (.get, "https://api.github.com/repos/o/r/git/ref/heads/main", none),
      (.post, "https://api.github.com/repos/o/r/git/refs",
        some "\x7b\"ref\":\"refs/heads/feat\",\"sha\":\"c0ffee\"\x7d"),
      (.get, "https://api.github.com/repos/o/r/git/ref/heads/feat", none),
      (.get, "https://api.github.com/repos/o/r/git/ref/heads/feat", none)] ∧
    (publicGitLab.branchMaking "o/r" "main" "" "feat").Follows x onGitLab ∧
    onGitLab.result = .ok () ∧
    onGitLab.state.sent.toList.map Request.shown = [
      (.get, "https://gitlab.com/api/v4/projects/o%2Fr/repository/branches/main", none),
      (.post, "https://gitlab.com/api/v4/projects/o%2Fr/repository/branches?branch=feat&ref=main",
        none),
      (.get, "https://gitlab.com/api/v4/projects/o%2Fr/repository/branches/feat", none),
      (.get, "https://gitlab.com/api/v4/projects/o%2Fr/repository/branches/feat", none)] ∧
    (publicForgejo.branchMaking "o/r" "main" "b0ba" "feat").Follows x onForgejo ∧
    onForgejo.result = .ok () ∧
    onForgejo.state.sent.toList.map Request.shown = [
      (.get, "https://codeberg.org/api/v1/repos/o/r/branches/main", none),
      (.post, "https://codeberg.org/api/v1/repos/o/r/branches",
        some "\x7b\"new_branch_name\":\"feat\",\"old_ref_name\":\"b0ba\"\x7d"),
      (.get, "https://codeberg.org/api/v1/repos/o/r/branches/feat", none),
      (.get, "https://codeberg.org/api/v1/repos/o/r/branches/feat", none)] := by
  intro x onGitHub onGitLab onForgejo
  obtain ⟨hGitHub, -, -⟩ := createBranch_protocol x "o/r" "main" "" "feat"
  obtain ⟨-, hGitLab, -⟩ := createBranch_protocol x "o/r" "main" "" "feat"
  obtain ⟨-, -, hForgejo⟩ := createBranch_protocol x "o/r" "main" "b0ba" "feat"
  let commit : Json.Written :=
    .object [(some "type", .string (some "commit")), (some "sha", .string (some "c0ffee"))]
  have hcommit : commit.Spells [("sha", some (.string (some "c0ffee")))] := by
    simp [commit, Json.Written.Spells]
  have hmain : Json.Written.Spells (.object [(some "ref", .string (some "refs/heads/main")),
      (some "object", commit)]) [("object", some commit)] := by
    simp [Json.Written.Spells]
  have htip : (Response.success [] mainHead).Says (GitHub.RefersTo "c0ffee") :=
    ⟨mainHead, _, by rfl, by rfl, commit, _, hmain, hcommit, rfl⟩
  refine ⟨(hGitHub _).1, ((hGitHub _).2 _ _).mpr htip, by rfl, by decide +kernel, hGitLab _, by rfl,
    by decide +kernel, hForgejo _, by rfl, by decide +kernel⟩

end ForgeChores
