import ForgeChores.Forge.GitLab
import ForgeChores.Proofs.Forge.Connected
import ForgeChores.Proofs.Http.Awaiting
import ForgeChores.Proofs.Json.Record

/-!
# ForgeChores.Proofs.Forge.ForkImport

How GitLab makes a fork: it is asked for until it is accepted, and then looked at until its import
is over. Both are waits that ask once per check, so `ForkCourse` says with the replies alone which
requests are sent, what comes of them and when.

* `reported?_eq_some_iff`, `importEnded?_eq_some_iff`: what a reply says of the project.
* `course_awaitImport`, `course_forkRepository`: a fork takes one of these courses, whatever the
  server replies.
* `forkRepository_of_not_isHttp`: a server that is not spoken to with HTTP is never asked.
* `forkRepository_protocol`: all of it together.
-/

namespace ForgeChores
namespace GitLab

/-! ## Requests and replies -/

def forkContext (g : GitLab) (source target : String) : String :=
  Context.fork (g.project source) (g.project target)

/-- Asks for the fork. -/
def forkRequest (g : GitLab) (source target : String) : Request :=
  .post (g.api.projectUrl (g.project source) ["fork"])
    (Json.object [("name", .string (RepoPath.parse target g.group).name),
      ("path", .string (RepoPath.parse target g.group).name),
      ("namespace_path", .string (RepoPath.parse target g.group).owner)])

/-- Looks at the project that is made. -/
def importRequest (g : GitLab) (id : Nat) : Request := .get (g.api.projectUrl (toString id) [])

/-- The project that a reply reports. -/
def reported? (reply : Reply) : Option Project := reply.read? Project.decoder

/-- The statuses of an import that is over, well or badly. -/
def endedStatuses : List String := ["finished", "failed", "timeout"]

/-- How the import ended that a reply reports on. Any other status and none mean that it goes on. -/
def importEnded? (reply : Reply) : Option String :=
  (reported? reply).bind fun project => project.importStatus.filter (· ∈ endedStatuses)

/-- The fields of a project. One that is not imported may have no status. -/
def Project.IsSpelled (project : Project) (w : Json.Written) : Prop :=
  ∃ id path status, w.Spells [("id", some id), ("path_with_namespace", some path),
      ("import_status", status)] ∧
    id.IsNatural project.id ∧ path.IsText project.path ∧
    Json.Written.IsTextOrMissing project.importStatus status

/-- What is sent to make a fork, what comes of it and after which time. -/
inductive ForkCourse (g : GitLab) (source target : String) (x : Exchange) :
    List Request → Except ForgeError Unit → Nat → Prop where
  /-- No request is answered with a project in time. -/
  | refused {n time : Nat} {t : WaitTimeout} :
      Http.Unanswered (g.forkContext source target ++ " to be accepted") g.timeouts.fork reported? 0
        x.replyAt n t time →
      ForkCourse g source target x (List.replicate (n + 1) (g.forkRequest source target))
        (.error (.timeout t)) time
  /-- One is, and a look at that project finds its import finished. -/
  | finished {n m accepted time : Nat} {project : Project} :
      Http.AnsweredBy g.timeouts.fork reported? 0 x.replyAt n project accepted →
      Http.AnsweredBy g.timeouts.forkReady importEnded? 0 (fun i => x.replyAt (n + 1 + i)) m
        "finished" time →
      ForkCourse g source target x
        (List.replicate (n + 1) (g.forkRequest source target) ++
          List.replicate (m + 1) (g.importRequest project.id))
        (.ok ()) (accepted + time)
  /-- One is, and a look at that project finds its import ended badly. -/
  | failed {n m accepted time : Nat} {project : Project} {status : String} :
      Http.AnsweredBy g.timeouts.fork reported? 0 x.replyAt n project accepted →
      Http.AnsweredBy g.timeouts.forkReady importEnded? 0 (fun i => x.replyAt (n + 1 + i)) m status
        time →
      status ≠ "finished" →
      ForkCourse g source target x
        (List.replicate (n + 1) (g.forkRequest source target) ++
          List.replicate (m + 1) (g.importRequest project.id))
        (.error (.provider (g.forkContext source target) none
          ("fork import ended with import_status=" ++ status)))
        (accepted + time)
  /-- One is, and no look at that project finds its import over in time. -/
  | unfinished {n m accepted time : Nat} {project : Project} {t : WaitTimeout} :
      Http.AnsweredBy g.timeouts.fork reported? 0 x.replyAt n project accepted →
      Http.Unanswered ("import of " ++ g.project target ++ " to finish") g.timeouts.forkReady
        importEnded? 0 (fun i => x.replyAt (n + 1 + i)) m t time →
      ForkCourse g source target x
        (List.replicate (n + 1) (g.forkRequest source target) ++
          List.replicate (m + 1) (g.importRequest project.id))
        (.error (.timeout t)) (accepted + time)

variable {g : GitLab} {source target : String} {x : Exchange}

/-! ## What a reply says -/

section

open Json.Fields

theorem Project.decoder_eq_some_iff (w : Json.Written) (project : Project) :
    decoder w = some project ↔ project.IsSpelled w := by
  unfold decoder
  rw [Json.record_eq_some_iff ((takes_required _ _).bind fun _ => (takes_required _ _).bind fun _ =>
    (takes_optional _ _).bind fun _ => takes_pure _)]
  simp only [Json.Decoder.natural_eq_some_iff, Json.Decoder.text_eq_some_iff,
    Json.Decoder.missing?_text_eq_some_iff]
  constructor
  · rintro ⟨_, hw, _, _, _, rfl, ⟨id, rfl, hid⟩, _, _, _, rfl, ⟨path, rfl, hpath⟩, _, _, _, rfl,
      ⟨status, rfl, hstatus⟩, rfl, rfl⟩
    exact ⟨id, path, status, hw, hid, hpath, hstatus⟩
  · rintro ⟨id, path, status, hw, hid, hpath, hstatus⟩
    exact ⟨_, hw, _, _, _, rfl, ⟨id, rfl, hid⟩, _, _, _, rfl, ⟨path, rfl, hpath⟩, _, _, _, rfl,
      ⟨status, rfl, hstatus⟩, rfl, rfl⟩

end

theorem reported?_eq_some_iff {reply : Reply} {project : Project} :
    reported? reply = some project ↔ reply.Says project.IsSpelled :=
  Reply.read?_eq_some_iff Project.decoder_eq_some_iff

theorem importEnded?_eq_some_iff {reply : Reply} {status : String} :
    importEnded? reply = some status ↔
      (status = "finished" ∨ status = "failed" ∨ status = "timeout") ∧
        ∃ id path, reply.Says (Project.IsSpelled ⟨id, path, some status⟩) := by
  simp only [importEnded?, Option.bind_eq_some_iff, reported?_eq_some_iff,
    Option.filter_eq_some_iff, endedStatuses, decide_eq_true_eq, List.mem_cons, List.not_mem_nil,
    or_false]
  constructor
  · rintro ⟨⟨id, path, _⟩, hsays, rfl, hended⟩
    exact ⟨hended, id, path, hsays⟩
  · rintro ⟨hended, id, path, hsays⟩
    exact ⟨_, hsays, rfl, hended⟩

/-- A status that is missing is none of those that end an import. -/
theorem filter_endedStatuses (status : Option String) :
    status.filter (· ∈ endedStatuses) =
      if isImportOver (status.getD "") then some (status.getD "") else none := by
  cases status with
  | none => rfl
  | some status => simp [isImportOver, endedStatuses, Option.filter, or_assoc]

/-! ## The two waits -/

/-- What a reply to a request for the fork comes to. -/
def accepted (g : GitLab) (source target : String) (reply : Reply) :
    Except ForgeError (Option Project) :=
  ((Exchange.outcome (g.forkContext source target) (g.forkRequest source target) reply).2 >>=
    fun r => r.decode (g.forkContext source target) Project.decoder).map some

/-- What a reply to a look at the import comes to. -/
def imported (g : GitLab) (context : String) (id : Nat) (reply : Reply) :
    Except ForgeError (Option String) :=
  ((Exchange.outcome context (g.importRequest id) reply).2 >>=
    fun r => r.decode context Project.decoder).map fun project =>
      if isImportOver (project.importStatus.getD "") then some (project.importStatus.getD "")
      else none

theorem outcome?_accepted (g : GitLab) (source target : String) :
    (fun reply => Http.outcome? (g.accepted source target reply)) = reported? := by
  funext reply
  exact (Http.outcome?_decoded some reply).trans (Option.bind_fun_some _)

theorem outcome?_imported (g : GitLab) (context : String) (id : Nat) :
    (fun reply => Http.outcome? (g.imported context id reply)) = importEnded? := by
  funext reply
  refine (Http.outcome?_decoded _ reply).trans (congrArg _ ?_)
  funext project
  exact (filter_endedStatuses project.importStatus).symm

/-- Asks for the fork once. -/
def accepting (g : GitLab) (source target : String) :
    Attempt Exchange ForgeError (Option Project) := do
  let project ← Http.sendJson (g.forkContext source target) Project.decoder
    (g.forkRequest source target)
  return some project

theorem accepting_eq_ask (hbase : g.api.base.isHttp = true) :
    g.accepting source target =
      Http.ask (g.forkRequest source target) (g.accepted source target) := by
  unfold accepting
  rw [Http.sendJson_eq_ask ((Client.isHttp_projectUrl _ _ _).trans hbase)]
  exact Http.ask_bind_pure some

theorem accepting_of_not_isHttp (hbase : ¬ g.api.base.isHttp = true) :
    ∃ e, g.accepting source target = .fail e := by
  have hrequest : ¬ (g.forkRequest source target).url.isHttp = true := by
    intro hhttp
    exact hbase ((Client.isHttp_projectUrl _ _ _).symm.trans hhttp)
  unfold accepting Http.sendJson
  rw [Http.send_of_not_isHttp hrequest]
  exact ⟨_, rfl⟩

theorem importEnd_eq_ask (hbase : g.api.base.isHttp = true) (context : String) (id : Nat) :
    g.importEnd context id = Http.ask (g.importRequest id) (g.imported context id) := by
  unfold importEnd getProject
  rw [Http.sendJson_eq_ask ((Client.isHttp_projectUrl _ _ _).trans hbase)]
  exact Http.ask_bind_pure _

/-- Looks at the project until its import is over, and takes it well if it is finished. -/
def awaitImport (g : GitLab) (source target : String) (id : Nat) : Task Exchange ForgeError Unit :=
  Wait.on ("import of " ++ g.project target ++ " to finish") g.timeouts.forkReady
      (g.importEnd (g.forkContext source target) id) >>= fun status =>
    if status ≠ "finished" then
      Task.fail (.provider (g.forkContext source target) none
        ("fork import ended with import_status=" ++ status))
    else pure ()

theorem forkRepository_eq (g : GitLab) (source target : String) :
    g.forkRepository source target =
      Wait.on (g.forkContext source target ++ " to be accepted") g.timeouts.fork
          (g.accepting source target) >>= fun project =>
        g.awaitImport source target project.id := rfl

/-! ## The whole fork -/

/-- What follows once the fork has been accepted. -/
theorem course_awaitImport (hbase : g.api.base.isHttp = true) {n accepted : Nat}
    {project : Project}
    (hanswered : Http.AnsweredBy g.timeouts.fork reported? 0 x.replyAt n project accepted) :
    let t := g.awaitImport source target project.id
      (x.after (List.replicate (n + 1) (g.forkRequest source target)))
    ∃ sent, ForkCourse g source target x sent t.result (accepted + t.elapsed) ∧
      t.state = x.after sent := by
  obtain ⟨m, hgets, himported⟩ := Http.on_ask_after
    ("import of " ++ g.project target ++ " to finish") g.timeouts.forkReady
    (g.importRequest project.id) (g.imported (g.forkContext source target) project.id) x
    (List.replicate (n + 1) (g.forkRequest source target))
  rw [outcome?_imported, List.length_replicate] at himported
  unfold awaitImport
  rw [importEnd_eq_ask hbase]
  generalize Wait.on ("import of " ++ g.project target ++ " to finish") g.timeouts.forkReady
    (Http.ask (g.importRequest project.id)
      (g.imported (g.forkContext source target) project.id)) = looking at hgets himported ⊢
  rcases hlooked : looking (x.after (List.replicate (n + 1) (g.forkRequest source target)))
    with ⟨r, spent, x'⟩
  rw [hlooked] at hgets himported
  rcases himported with ⟨status, rfl, hstatus⟩ | ⟨t, rfl, hunanswered⟩
  · rw [Task.bind_of_ok hlooked]
    by_cases hfinished : status = "finished"
    · subst hfinished
      exact ⟨_, .finished hanswered hstatus, hgets⟩
    · simp only [ne_eq, hfinished, not_false_eq_true, if_true]
      exact ⟨_, .failed hanswered hstatus hfinished, hgets⟩
  · rw [Task.bind_of_error hlooked]
    exact ⟨_, .unfinished hanswered hunanswered, hgets⟩

theorem course_forkRepository (hbase : g.api.base.isHttp = true) (source target : String)
    (x : Exchange) :
    ∃ sent, ForkCourse g source target x sent (g.forkRepository source target x).result
        (g.forkRepository source target x).elapsed ∧
      (g.forkRepository source target x).state = x.after sent := by
  rw [forkRepository_eq, accepting_eq_ask hbase]
  obtain ⟨n, hposts, haccepted⟩ := Http.on_ask (g.forkContext source target ++ " to be accepted")
    g.timeouts.fork (g.forkRequest source target) (g.accepted source target) x
  rw [outcome?_accepted] at haccepted
  generalize Wait.on (g.forkContext source target ++ " to be accepted") g.timeouts.fork
    (Http.ask (g.forkRequest source target) (g.accepted source target)) = accepting
    at hposts haccepted ⊢
  rcases hfirst : accepting x with ⟨r, spent, x'⟩
  rw [hfirst] at hposts haccepted
  rcases haccepted with ⟨project, rfl, hanswered⟩ | ⟨t, rfl, hunanswered⟩
  · obtain rfl : x' = _ := hposts
    rw [Task.bind_of_ok hfirst]
    exact course_awaitImport hbase hanswered
  · rw [Task.bind_of_error hfirst]
    exact ⟨_, .refused hunanswered, hposts⟩

/-- Elsewhere than with HTTP nothing can be asked, and no fork is ever accepted. -/
theorem forkRepository_of_not_isHttp (hbase : ¬ g.api.base.isHttp = true) (source target : String)
    (x : Exchange) :
    let t := g.forkRepository source target x
    t.state = x ∧ ∃ d, t.result = .error (.timeout d) ∧
      d.what = g.forkContext source target ++ " to be accepted" ∧
      d.timeout = g.timeouts.fork.timeout ∧ Wait.IsOver g.timeouts.fork t.elapsed d.attempts := by
  have haccepting : ∃ e, g.accepting source target = .fail e := accepting_of_not_isHttp hbase
  obtain ⟨e, he⟩ := haccepting
  obtain ⟨hstate, d, hd, hend⟩ := Http.on_fail (α := Project)
    (g.forkContext source target ++ " to be accepted") g.timeouts.fork e x
  rw [forkRepository_eq, he]
  rcases hfirst : Wait.on (g.forkContext source target ++ " to be accepted") g.timeouts.fork
    (.fail e) x with ⟨r, spent, x'⟩
  rw [hfirst] at hstate hd hend
  obtain rfl : r = _ := hd
  rw [Task.bind_of_error hfirst]
  exact ⟨hstate, d, rfl, hend⟩

/-- A fork is asked for until a reply reports a project in time, and that project is looked at until
a reply in time reports its import over; only a finished one is a success. What is still open at a
deadline is given up there. An import is over when its status says that it is finished, has failed
or has timed out. -/
theorem forkRepository_protocol (g : GitLab) (source target : String) (x : Exchange) :
    let t := g.forge.forkRepository source target x
    (if g.api.base.isHttp = true then
      ∃ sent, ForkCourse g source target x sent t.result t.elapsed ∧ t.state = x.after sent
    else
      t.state = x ∧ ∃ d, t.result = .error (.timeout d) ∧
        d.what = g.forkContext source target ++ " to be accepted" ∧
        d.timeout = g.timeouts.fork.timeout ∧
        Wait.IsOver g.timeouts.fork t.elapsed d.attempts) ∧
    (∀ reply project, reported? reply = some project ↔ reply.Says project.IsSpelled) ∧
    ∀ reply status, importEnded? reply = some status ↔
      (status = "finished" ∨ status = "failed" ∨ status = "timeout") ∧
        ∃ id path, reply.Says (Project.IsSpelled ⟨id, path, some status⟩) := by
  intro t
  refine ⟨?_, fun _ _ => reported?_eq_some_iff, fun _ _ => importEnded?_eq_some_iff⟩
  by_cases hbase : g.api.base.isHttp = true
  · rw [if_pos hbase]
    exact course_forkRepository hbase source target x
  · rw [if_neg hbase]
    exact forkRepository_of_not_isHttp hbase source target x

end GitLab

/-- A project as GitLab reports it while it is imported. -/
def importReport (status : String) : String :=
  "\x7b\"id\":42,\"path_with_namespace\":\"o/r\",\"import_status\":\"" ++ status ++ "\"\x7d"

/-- A server that is not available at first, then accepts the fork and gives its import up. -/
def brokenImport : List Reply :=
  [⟨0, some ⟨503, [], some []⟩⟩, .prompt [] "\x7b\"id\":42,\"path_with_namespace\":\"o/r\"\x7d",
    .prompt [] (importReport "started"), .prompt [] (importReport "failed")]

/-- There the fork ends with the second look at the project. -/
theorem forkRepository_protocol_broken :
    let t := publicGitLab.forge.forkRepository "s/r" "o/r" ⟨brokenImport, #[]⟩
    (∃ sent, GitLab.ForkCourse publicGitLab "s/r" "o/r" ⟨brokenImport, #[]⟩ sent t.result t.elapsed ∧
      t.state = Exchange.after ⟨brokenImport, #[]⟩ sent) ∧
    GitLab.importEnded? (.prompt [] (importReport "failed")) = some "failed" ∧
    t.result = .error (.provider "fork s/r into o/r" none
      "fork import ended with import_status=failed") ∧
    t.state.sent.toList.map Request.shown = [
      (.post, "https://gitlab.com/api/v4/projects/s%2Fr/fork",
        some "\x7b\"name\":\"r\",\"namespace_path\":\"o\",\"path\":\"r\"\x7d"),
      (.post, "https://gitlab.com/api/v4/projects/s%2Fr/fork",
        some "\x7b\"name\":\"r\",\"namespace_path\":\"o\",\"path\":\"r\"\x7d"),
      (.get, "https://gitlab.com/api/v4/projects/42", none),
      (.get, "https://gitlab.com/api/v4/projects/42", none)] := by
  intro t
  obtain ⟨hcourse, -, hended⟩ :=
    GitLab.forkRepository_protocol publicGitLab "s/r" "o/r" ⟨brokenImport, #[]⟩
  let id : Json.Written := .number ⟨false, ['4', '2'], none, none⟩
  have hid : id.IsNatural 42 := ⟨rfl, rfl, rfl, by decide, by decide⟩
  have hspelled : (GitLab.Project.mk 42 "o/r" (some "failed")).IsSpelled (.object [(some "id", id),
      (some "path_with_namespace", .string (some "o/r")),
      (some "import_status", .string (some "failed"))]) :=
    ⟨id, _, _, ⟨by simp, by simp⟩, hid, rfl, .text rfl⟩
  have hsays : (Reply.prompt [] (importReport "failed")).Says
      (GitLab.Project.mk 42 "o/r" (some "failed")).IsSpelled :=
    ⟨_, rfl, importReport "failed", _, by rfl, by rfl, hspelled⟩
  refine ⟨?_, (hended _ _).mpr ⟨.inr (.inl rfl), 42, "o/r", hsays⟩, by decide +kernel,
    by decide +kernel⟩
  rwa [if_pos (by decide)] at hcourse

end ForgeChores
