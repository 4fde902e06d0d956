import ForgeChores.Proofs.Forge.MergeCommit
import ForgeChores.Proofs.Http.Asking
import ForgeChores.Proofs.Json.Record

/-!
# ForgeChores.Proofs.Forge.MergeSteps

The requests by which a pull request is merged on GitHub, and what comes of the replies.

* `Report`: what is read of a pull request, field by field. `pullRequest_eq` says which of it counts:
  the merge commit only once `merged_at` is set.
* `Merging`: which requests are sent and what comes of them, one constructor for each way to go.
* `answered_eq_ok_iff`, `reported_eq_ok_iff`: what the answers to a merge and to the look after it
  say.
* `mergePullRequest_protocol`: every merge goes one of these ways, whatever the server replies.
-/

namespace ForgeChores

/-! ## Records -/

/-- What is made of the fields of a record may be made of the record. -/
theorem Json.record_map {α β : Type} (fields : Json.Fields α) (f : α → β) (w : Json.Written) :
    Json.record (f <$> fields) w = (Json.record fields w).map f := by
  have hmap : ∀ source, (f <$> fields) source = (fields source).map fun found =>
      (f found.1, found.2) := by
    intro source
    show (fields source >>= fun found => pure (f found.1, found.2)) = _
    cases fields source <;> rfl
  cases w with
  | object found =>
    simp only [Json.record, hmap]
    split
    · cases fields (.named found) <;> rfl
    · rfl
  | array items =>
    simp only [Json.record, hmap]
    rcases fields (.positional items) with _ | ⟨a, _ | _ | _⟩ <;> rfl
  | _ => rfl

namespace GitHub

/-- A pull request as it is reported, with a commit that may be that of a test merge. -/
structure Report where
  number : Nat
  source : String
  target : String
  headSha : String
  mergeCommit : Option String
  mergedAt : Option String

def report : Json.Decoder Report := Json.record do
  let number ← Json.Fields.required "number" .natural
  let (source, headSha) ← Json.Fields.required "head" tip
  let (target, _) ← Json.Fields.required "base" tip
  let mergeCommit ← Json.Fields.optional "merge_commit_sha" .text
  let mergedAt ← Json.Fields.optional "merged_at" .text
  return ⟨number, source, target, headSha, mergeCommit, mergedAt⟩

def Report.pull (r : Report) : PullRequest :=
  ⟨r.number, r.source, r.target, r.headSha,
    if r.mergedAt.isSome then r.mergeCommit.getD "" else ""⟩

theorem pullRequest_eq (w : Json.Written) : pullRequest w = (report w).map Report.pull := by
  rw [report, ← Json.record_map, pullRequest]
  simp only [map_bind, map_pure]
  rfl

theorem decode_pullRequest (context : String) (r : Response) :
    r.decode context pullRequest = (r.decode context report).map Report.pull := by
  unfold Response.decode
  cases r.text? with
  | none => rfl
  | some text =>
    have hread : pullRequest.read text = (report.read text).map Report.pull := by
      unfold Json.Decoder.read
      cases Json.Written.parse? text with
      | none => rfl
      | some w => exact pullRequest_eq w
    simp only [hread]
    cases report.read text <;> rfl

/-! ## The requests of a merge -/

def updateRequest (g : GitHub) (r : RepoPath) (number : Nat) : Request :=
  .put (g.pullUrl r number ["update-branch"]) (Json.object [])

def lookRequest (g : GitHub) (r : RepoPath) (number : Nat) : Request :=
  .get (g.pullUrl r number [])

/-- What the reply to the merge comes to: a commit, if it names one. -/
def answered (g : GitHub) (r : RepoPath) (number : Nat) (reply : Reply) :
    Except ForgeError (Option String) :=
  (Exchange.outcome (Context.mergePull number r.fullPath) (g.mergeRequest r number) reply).2 >>=
    fun answer => answer.decode (Context.mergePull number r.fullPath) mergeResult

/-- What the reply to the look at the pull request comes to. -/
def reported (g : GitHub) (r : RepoPath) (number : Nat) (reply : Reply) :
    Except ForgeError Report :=
  (Exchange.outcome (Context.getPull number r.fullPath) (g.lookRequest r number) reply).2 >>=
    fun answer => answer.decode (Context.getPull number r.fullPath) report

/-- The pull request as it comes back from a merge that was answered with `sha`. A commit that is
reported counts if the report says that it is merged, and if there is none, that of the answer. -/
def Report.merged (r : Report) (sha : Option String) : PullRequest :=
  ⟨r.number, r.source, r.target, r.headSha,
    if r.mergedAt ≠ none ∧ r.mergeCommit.getD "" ≠ "" then r.mergeCommit.getD "" else sha.getD ""⟩

/-- The requests of a merge, and what comes of it. -/
inductive Merging (g : GitHub) (r : RepoPath) (number : Nat) (x : Exchange) :
    List Request → Except ForgeError PullRequest → Prop where
  | conflict {e : ForgeError} : g.answered r number (x.replyAt 0) = .error e → e.kind = .conflict →
      Merging g r number x [g.mergeRequest r number, g.updateRequest r number] (.error e)
  | failed {e : ForgeError} : g.answered r number (x.replyAt 0) = .error e → e.kind ≠ .conflict →
      Merging g r number x [g.mergeRequest r number] (.error e)
  | unread {sha : Option String} {e : ForgeError} :
      g.answered r number (x.replyAt 0) = .ok sha → g.reported r number (x.replyAt 1) = .error e →
      Merging g r number x [g.mergeRequest r number, g.lookRequest r number] (.error e)
  | merged {sha : Option String} {found : Report} :
      g.answered r number (x.replyAt 0) = .ok sha → g.reported r number (x.replyAt 1) = .ok found →
      Merging g r number x [g.mergeRequest r number, g.lookRequest r number]
        (.ok (found.merged sha))

variable {g : GitHub} {r : RepoPath} {number : Nat}

/-! ## What the answers say -/

/-- The answer to a merge, which may name its commit. -/
def NamesCommit (sha : Option String) (w : Json.Written) : Prop :=
  ∃ commit, w.Spells [("sha", commit)] ∧ Json.Written.IsTextOrMissing sha commit

/-- A branch and the hash of its tip. -/
def IsTip (branch sha : String) (w : Json.Written) : Prop :=
  ∃ name commit, w.Spells [("ref", some name), ("sha", some commit)] ∧ name.IsText branch ∧
    commit.IsText sha

/-- The fields of a pull request. -/
def Report.IsSpelled (r : Report) (w : Json.Written) : Prop :=
  ∃ number head base commit mergedAt, w.Spells [("number", some number), ("head", some head),
      ("base", some base), ("merge_commit_sha", commit), ("merged_at", mergedAt)] ∧
    number.IsNatural r.number ∧ IsTip r.source r.headSha head ∧ (∃ sha, IsTip r.target sha base) ∧
    Json.Written.IsTextOrMissing r.mergeCommit commit ∧
    Json.Written.IsTextOrMissing r.mergedAt mergedAt

section

open Json.Fields

theorem mergeResult_eq_some_iff (w : Json.Written) (sha : Option String) :
    mergeResult w = some sha ↔ NamesCommit sha w := by
  rw [mergeResult, Json.record_eq_some_iff (takes_optional _ _)]
  simp only [Json.Decoder.missing?_text_eq_some_iff]
  constructor
  · rintro ⟨_, hw, commit, rfl, hcommit⟩
    exact ⟨commit, hw, hcommit⟩
  · rintro ⟨commit, hw, hcommit⟩
    exact ⟨_, hw, commit, rfl, hcommit⟩

theorem tip_eq_some_iff {w : Json.Written} {branch sha : String} :
    tip w = some (branch, sha) ↔ IsTip branch sha w := by
  unfold tip
  rw [Json.record_eq_some_iff ((takes_required _ _).bind fun _ =>
    (takes_required _ _).bind fun _ => takes_pure _)]
  simp only [Json.Decoder.text_eq_some_iff]
  constructor
  · rintro ⟨_, hw, _, _, _, rfl, ⟨name, rfl, hname⟩, _, _, _, rfl, ⟨commit, rfl, hcommit⟩, rfl,
      ⟨⟩⟩
    exact ⟨name, commit, hw, hname, hcommit⟩
  · rintro ⟨name, commit, hw, hname, hcommit⟩
    exact ⟨_, hw, _, _, _, rfl, ⟨name, rfl, hname⟩, _, _, _, rfl, ⟨commit, rfl, hcommit⟩, rfl, rfl⟩

theorem report_eq_some_iff (w : Json.Written) (found : Report) :
    report w = some found ↔ found.IsSpelled w := by
  unfold report
  rw [Json.record_eq_some_iff ((takes_required _ _).bind fun _ => (takes_required _ _).bind fun _ =>
    (takes_required _ _).bind fun _ => (takes_optional _ _).bind fun _ =>
      (takes_optional _ _).bind fun _ => takes_pure _)]
  simp only [Json.Decoder.natural_eq_some_iff, Json.Decoder.missing?_text_eq_some_iff]
  constructor
  · rintro ⟨_, hw, _, _, _, rfl, ⟨number, rfl, hnumber⟩, _, _, ⟨_, _⟩, rfl, ⟨head, rfl, hhead⟩,
      _, _, ⟨_, sha⟩, rfl, ⟨base, rfl, hbase⟩, _, _, _, rfl, ⟨commit, rfl, hcommit⟩,
      _, _, _, rfl, ⟨mergedAt, rfl, hmergedAt⟩, rfl, rfl⟩
    exact ⟨number, head, base, commit, mergedAt, hw, hnumber, tip_eq_some_iff.mp hhead,
      ⟨sha, tip_eq_some_iff.mp hbase⟩, hcommit, hmergedAt⟩
  · rintro ⟨number, head, base, commit, mergedAt, hw, hnumber, hhead, ⟨sha, hbase⟩, hcommit,
      hmergedAt⟩
    exact ⟨_, hw, _, _, _, rfl, ⟨number, rfl, hnumber⟩,
      _, _, ⟨_, _⟩, rfl, ⟨head, rfl, tip_eq_some_iff.mpr hhead⟩,
      _, _, ⟨_, sha⟩, rfl, ⟨base, rfl, tip_eq_some_iff.mpr hbase⟩,
      _, _, _, rfl, ⟨commit, rfl, hcommit⟩, _, _, _, rfl, ⟨mergedAt, rfl, hmergedAt⟩, rfl, rfl⟩

end

theorem answered_eq_ok_iff {reply : Reply} {sha : Option String} :
    g.answered r number reply = .ok sha ↔ reply.Says (NamesCommit sha) :=
  Exchange.decoded_outcome_eq_ok_iff.trans (Reply.read?_eq_some_iff mergeResult_eq_some_iff)

theorem reported_eq_ok_iff {reply : Reply} {found : Report} :
    g.reported r number reply = .ok found ↔ reply.Says found.IsSpelled :=
  Exchange.decoded_outcome_eq_ok_iff.trans (Reply.read?_eq_some_iff report_eq_some_iff)

/-! ## The run of a merge -/

theorem mergedPull_pull (found : Report) (sha : Option String) :
    mergedPull sha found.pull = found.merged sha := by
  obtain ⟨number, source, target, headSha, mergeCommit, mergedAt⟩ := found
  cases mergedAt with
  | none => rfl
  | some at_ =>
    by_cases hcommit : mergeCommit.getD "" = ""
    · simp [mergedPull, Report.pull, Report.merged, PullRequest.isMerged, hcommit]
    · simp [mergedPull, Report.pull, Report.merged, PullRequest.isMerged, hcommit]

theorem isHttp_pullUrl (hbase : g.api.base.isHttp = true) (rest : List String) :
    (g.pullUrl r number rest).isHttp = true := (Client.isHttp_repoUrl g.api r _).trans hbase

theorem merge_apply (hbase : g.api.base.isHttp = true) (r : RepoPath) (number : Nat)
    (x : Exchange) :
    Task.ofAttempt (Http.sendJson (Context.mergePull number r.fullPath) mergeResult
        (g.mergeRequest r number)) x =
      ⟨g.answered r number (x.replyAt 0), Exchange.waited (x.replyAt 0),
        x.after [g.mergeRequest r number]⟩ := by
  rw [Http.sendJson_eq_ask (isHttp_pullUrl hbase _), Http.ofAttempt_ask]
  rfl

theorem look_apply (hbase : g.api.base.isHttp = true) (r : RepoPath) (number : Nat)
    (x : Exchange) :
    Task.ofAttempt (g.getPullRequest r number) x =
      ⟨(g.reported r number (x.replyAt 0)).map Report.pull, Exchange.waited (x.replyAt 0),
        x.after [g.lookRequest r number]⟩ := by
  unfold getPullRequest reported lookRequest
  rw [Http.sendJson_eq_ask (isHttp_pullUrl hbase _), Http.ofAttempt_ask]
  congr 1
  generalize (Exchange.outcome _ _ (x.replyAt 0)).2 = outcome
  cases outcome with
  | error e => rfl
  | ok answer => exact decode_pullRequest _ answer

/-- After a merge that was answered with `sha`. -/
theorem return_apply (hbase : g.api.base.isHttp = true) (r : RepoPath) (number : Nat)
    (sha : Option String) (x : Exchange) :
    Task.ofAttempt (g.getPullRequest r number >>= fun found => pure (mergedPull sha found)) x =
      ⟨(g.reported r number (x.replyAt 0)).map (·.merged sha), Exchange.waited (x.replyAt 0),
        x.after [g.lookRequest r number]⟩ := by
  rw [Task.ofAttempt_bind]
  simp only [Task.ofAttempt_pure]
  rw [Task.bind_pure, look_apply hbase r number x]
  cases g.reported r number (x.replyAt 0) with
  | error e => rfl
  | ok found => simp only [Except.map, mergedPull_pull]

theorem update_apply (hbase : g.api.base.isHttp = true) (context : String) (x : Exchange) :
    (Task.ofAttempt (Http.sendEmpty context (g.updateRequest r number)) x).state =
      x.after [g.updateRequest r number] := by
  have hupdate : (g.updateRequest r number).url.isHttp = true := isHttp_pullUrl hbase _
  rw [Http.state_sendEmpty, if_pos hupdate]

theorem merging_of_isHttp (hbase : g.api.base.isHttp = true) (name : String) (number : Nat)
    (x : Exchange) :
    ∃ sent, Merging g (g.repo name) number x sent
        (Task.ofAttempt (g.mergePullRequest name number) x).result ∧
      (Task.ofAttempt (g.mergePullRequest name number) x).state = x.after sent := by
  have hmerge := merge_apply hbase (g.repo name) number x
  unfold mergePullRequest
  unfold mergeRequest at hmerge
  rw [Task.ofAttempt_bind, Task.ofAttempt_caught, Task.caught_bind, hmerge]
  cases hanswered : g.answered (g.repo name) number (x.replyAt 0) with
  | error e =>
    by_cases hconflict : e.kind = .conflict
    · simp only [hconflict, if_true]
      rw [Task.ofAttempt_bind, Task.ofAttempt_caught, Task.caught_bind]
      refine ⟨_, .conflict hanswered hconflict, ?_⟩
      exact (update_apply hbase _ _).trans (Exchange.after_after x _ _)
    · simp only [hconflict, if_false]
      exact ⟨_, .failed hanswered hconflict, rfl⟩
  | ok sha =>
    -- the look meets the second reply
    have hreply : (x.after [g.mergeRequest (g.repo name) number]).replyAt 0 = x.replyAt 1 :=
      x.replyAt_after _ 0
    have hreturn := return_apply hbase (g.repo name) number sha
      (x.after [g.mergeRequest (g.repo name) number])
    rw [Exchange.after_after, hreply] at hreturn
    refine ⟨_, ?_, congrArg Timed.state hreturn⟩
    have hresult := congrArg Timed.result hreturn
    cases hreported : g.reported (g.repo name) number (x.replyAt 1) with
    | error e =>
      rw [hreported] at hresult
      exact hresult ▸ .unread hanswered hreported
    | ok found =>
      rw [hreported] at hresult
      exact hresult ▸ .merged hanswered hreported

theorem mergePullRequest_of_not_isHttp (hbase : ¬ g.api.base.isHttp = true) (name : String)
    (number : Nat) (x : Exchange) :
    (Task.ofAttempt (g.mergePullRequest name number) x).state = x ∧
      ∃ e, (Task.ofAttempt (g.mergePullRequest name number) x).result = .error e := by
  have hurl : ¬ (g.mergeRequest (g.repo name) number).url.isHttp = true := by
    show ¬ (g.api.repoUrl _ _).isHttp = true
    rwa [Client.isHttp_repoUrl]
  obtain ⟨context, message, hmerge⟩ : ∃ context message, Task.ofAttempt (Http.sendJson
      (Context.mergePull number (g.repo name).fullPath) mergeResult
      (g.mergeRequest (g.repo name) number)) x = ⟨.error (.provider context none message), 0, x⟩ := by
    unfold Http.sendJson
    rw [Http.send_of_not_isHttp hurl]
    exact ⟨_, _, rfl⟩
  unfold mergePullRequest
  unfold mergeRequest at hmerge
  rw [Task.ofAttempt_bind, Task.ofAttempt_caught, Task.caught_bind, hmerge]
  exact ⟨rfl, _, rfl⟩

/-- Every merge goes one of the ways, whatever the server replies. Elsewhere than with HTTP nothing is
sent. The commit of an answer and the fields of a report are what the body spells. -/
theorem mergePullRequest_protocol (g : GitHub) (repo : String) (number : Nat) (x : Exchange) :
    let t := g.forge.mergePullRequest repo number x
    (if g.api.base.isHttp then
      ∃ sent, Merging g (g.repo repo) number x sent t.result ∧ t.state = x.after sent
    else t.state = x ∧ ∃ e, t.result = .error e) ∧
    (∀ reply sha, g.answered (g.repo repo) number reply = .ok sha ↔
      reply.Says (NamesCommit sha)) ∧
    ∀ reply found, g.reported (g.repo repo) number reply = .ok found ↔
      reply.Says found.IsSpelled := by
  refine ⟨?_, fun _ _ => answered_eq_ok_iff, fun _ _ => reported_eq_ok_iff⟩
  split
  · rename_i hbase
    exact merging_of_isHttp hbase repo number x
  · rename_i hbase
    exact mergePullRequest_of_not_isHttp hbase repo number x

end GitHub

/-- A server that names the commit of a merge and reports only a test merge after it. -/
def namedMerge : List Reply :=
  [.prompt [] "\x7b\"sha\":\"c0ffee\",\"merged\":true\x7d",
    .prompt [] ("\x7b\"number\":7,\"head\":\x7b\"ref\":\"f\",\"sha\":\"a\"\x7d," ++
      "\"base\":\x7b\"ref\":\"m\",\"sha\":\"b\"\x7d," ++
      "\"merged_at\":null,\"merge_commit_sha\":\"7e57\"\x7d")]

/-- A server that refuses to merge for a conflict and fails to update the branch. -/
def refusedMerge : List Reply :=
  [⟨0, some ⟨409, [], some []⟩⟩, ⟨0, some ⟨500, [], some []⟩⟩]

/-- The commit that is returned is the one of the answer to the merge, and a conflict stays one. -/
theorem mergePullRequest_protocol_named :
    let merged := publicGitHub.forge.mergePullRequest "o/r" 7 ⟨namedMerge, #[]⟩
    let refused := publicGitHub.forge.mergePullRequest "o/r" 7 ⟨refusedMerge, #[]⟩
    (∃ sent, GitHub.Merging publicGitHub (publicGitHub.repo "o/r") 7 ⟨namedMerge, #[]⟩ sent
      merged.result ∧ merged.state = Exchange.after ⟨namedMerge, #[]⟩ sent) ∧
    (Reply.prompt [] "\x7b\"sha\":\"c0ffee\",\"merged\":true\x7d").Says
      (GitHub.NamesCommit (some "c0ffee")) ∧
    merged.result = .ok ⟨7, "f", "m", "a", "c0ffee"⟩ ∧
    merged.state.sent.toList.map Request.shown = [
      (.put, "https://api.github.com/repos/o/r/pulls/7/merge",
        some "\x7b\"merge_method\":\"merge\"\x7d"),
      (.get, "https://api.github.com/repos/o/r/pulls/7", none)] ∧
    (∃ sent, GitHub.Merging publicGitHub (publicGitHub.repo "o/r") 7 ⟨refusedMerge, #[]⟩ sent
      refused.result ∧ refused.state = Exchange.after ⟨refusedMerge, #[]⟩ sent) ∧
    (∃ e, refused.result = .error e ∧ e.kind = .conflict) ∧
    refused.state.sent.toList.map Request.shown = [
      (.put, "https://api.github.com/repos/o/r/pulls/7/merge",
        some "\x7b\"merge_method\":\"merge\"\x7d"),
      (.put, "https://api.github.com/repos/o/r/pulls/7/update-branch", some "\x7b\x7d")] := by
  intro merged refused
  obtain ⟨hmerged, hanswered, -⟩ :=
    GitHub.mergePullRequest_protocol publicGitHub "o/r" 7 ⟨namedMerge, #[]⟩
  obtain ⟨hrefused, -⟩ := GitHub.mergePullRequest_protocol publicGitHub "o/r" 7 ⟨refusedMerge, #[]⟩
  have hhttp : publicGitHub.api.base.isHttp = true := by decide
  rw [if_pos hhttp] at hmerged hrefused
  exact ⟨hmerged, (hanswered _ _).mp (by rfl), by decide +kernel, by decide +kernel, hrefused,
    ⟨_, by rfl, by decide +kernel⟩, by decide +kernel⟩

end ForgeChores
