import ForgeChores.Forge.Forgejo
import ForgeChores.Forge.GitHub
import ForgeChores.Forge.GitLab
import ForgeChores.Proofs.Http.Exchange
import ForgeChores.Proofs.Wait.Polling

/-!
# ForgeChores.Proofs.Forge.Confirmation

How long the operations take that wait until their effect can be seen.

A request takes `Exchange.requestTimeout` at most and a wait `WaitOptions.longest`, however its checks
behave: those that are still running then are cut off, between two requests or in the middle of
one. So an operation takes as long as the requests and the waits that it makes one after the other.
None of this needs an interval; without one a wait is over at its deadline.
-/

namespace ForgeChores

variable {name base revision branch source target : String} {number : Nat}

theorem Wait.on_within {σ α : Type} {what : String} {o : WaitOptions}
    {check : Attempt σ ForgeError (Option α)} : (Wait.on what o check).Within o.longest :=
  Wait.poll_within.mapError

theorem awaitBranch_within {σ : Type} {repo : String} {o : WaitOptions}
    {isThere : Attempt σ ForgeError Bool} : (awaitBranch branch repo o isThere).Within o.longest :=
  Wait.on_within

/-! ## Branches -/

theorem GitHub.createBranch_within {g : GitHub} :
    (g.createBranch name base revision branch).Within
      (Exchange.requestTimeout + (Exchange.requestTimeout + g.timeouts.branch.longest)) := by
  unfold createBranch
  exact Task.within_bind Http.sendJson_within fun _ =>
    Task.within_bind Http.sendEmpty_within fun _ => awaitBranch_within

theorem GitLab.createBranch_within {g : GitLab} :
    (g.createBranch name base revision branch).Within
      (Exchange.requestTimeout + (Exchange.requestTimeout + g.timeouts.branch.longest)) := by
  unfold createBranch
  exact Task.within_bind Http.sendEmpty_within fun _ =>
    Task.within_bind Http.sendEmpty_within fun _ => awaitBranch_within

theorem Forgejo.createBranch_within {g : Forgejo} :
    (g.createBranch name base revision branch).Within
      (Exchange.requestTimeout + (Exchange.requestTimeout + g.timeouts.branch.longest)) := by
  unfold createBranch
  refine Task.within_bind Http.sendEmpty_within fun _ =>
    Task.within_bind Http.send_within fun answer => ?_
  split
  · exact Task.within_fail _ _
  · exact awaitBranch_within

/-! ## Merging -/

theorem GitLab.mergePullRequest_within {g : GitLab} :
    (g.mergePullRequest name number).Within
      (Exchange.requestTimeout + g.timeouts.branch.longest) := by
  unfold mergePullRequest
  refine Task.within_bind Http.sendJson_within fun pull => ?_
  split
  · exact Task.within_pure _ _
  · exact Wait.poll_within.mapError

/-! ## Forks -/

theorem GitHub.forkRepository_within {g : GitHub} :
    (g.forkRepository source target).Within
      (g.timeouts.fork.longest + g.timeouts.forkReady.longest) := by
  unfold forkRepository
  refine Task.within_bind Wait.on_within fun accepted => ?_
  -- what the request was answered is looked at in no time
  exact Task.within_instant_bind (Task.within_ofExcept accepted 0) fun _ => Wait.on_within

theorem GitLab.forkRepository_within {g : GitLab} :
    (g.forkRepository source target).Within
      (g.timeouts.fork.longest + g.timeouts.forkReady.longest) := by
  unfold forkRepository
  refine Task.within_bind Wait.on_within fun fork => ?_
  refine Task.within_bind_instant Wait.on_within fun status => ?_
  split
  · exact Task.within_fail _ _
  · exact Task.within_pure _ _

theorem Forgejo.forkRepository_within {g : Forgejo} :
    (g.forkRepository source target).Within g.timeouts.fork.longest := Wait.on_within

/-! ## Deleting -/

theorem GitLab.deletePermanently_within {g : GitLab} {path : String} :
    (Task.ofAttempt (g.deletePermanently path)).Within Exchange.requestTimeout :=
  Http.sendEmpty_within

theorem GitLab.deleteRepository_within {g : GitLab} :
    (g.deleteRepository name).Within
      (Exchange.requestTimeout + (Exchange.requestTimeout + g.timeouts.delete.longest)) := by
  unfold deleteRepository
  refine Task.within_bind (Task.Within.ofAttempt_caught Http.sendJson_within) fun found => ?_
  cases found with
  | error e =>
    simp only
    split
    · exact Task.within_pure _ _
    · exact Task.within_fail _ _
  | ok project =>
    simp only
    split
    · exact (Task.within_bind_instant GitLab.deletePermanently_within fun _ =>
        Task.within_pure _ 0).mono (Nat.le_add_right _ _)
    · refine Task.within_bind Http.isThere_within fun wasThere => ?_
      split
      · exact Task.within_bind_instant Wait.on_within fun _ => Task.within_pure _ 0
      · exact Task.within_pure _ _

/-! ## Statuses -/

theorem Wait.forStatus_within {σ ε : Type} {describe : ε → String} {appear complete : WaitOptions}
    {report : Attempt σ ε (List CommitStatus)} :
    (Wait.forStatus describe name appear complete report).Within
      (appear.longest + complete.longest) :=
  Task.within_bind Wait.poll_within fun _ =>
    Task.within_bind_instant Wait.poll_within.noted fun _ => Task.within_pure _ 0

theorem Forge.statusConclusion_within {σ : Type} {f : Forge σ} {repo sha : String} {o : WaitOptions} :
    (f.statusConclusion repo sha name o).Within (o.longest + o.longest) :=
  Wait.forStatus_within.mapError

/-! ## The forges -/

/-- A branch is made within `create`, a repository forked within `fork`, and a status is waited for
twice, the second time once it is there. -/
structure Forge.Confirms {σ : Type} (f : Forge σ) (create fork : Nat) : Prop where
  createBranch_within : ∀ repo base revision branch,
    (f.createBranch repo base revision branch).Within create
  forkRepository_within : ∀ source target, (f.forkRepository source target).Within fork
  conclusion_within : ∀ repo sha name o, (f.statusConclusion repo sha name o).Within (2 * o.longest)

theorem Forge.Confirms.of_within {σ : Type} {f : Forge σ} {create fork : Nat}
    (hcreate : ∀ repo base revision branch,
      (f.createBranch repo base revision branch).Within create)
    (hfork : ∀ source target, (f.forkRepository source target).Within fork) :
    f.Confirms create fork where
  createBranch_within := hcreate
  forkRepository_within := hfork
  conclusion_within _ _ _ o :=
    f.statusConclusion_within.mono (Nat.le_of_eq (Nat.two_mul o.longest).symm)

/-- Every operation that confirms its effect is bounded in time, whatever the server answers and
however late. Only GitLab waits after a merge and after a deletion; what it sends within a check,
such as the second deletion, counts to the wait. -/
theorem confirmations_within (gitHub : GitHub) (gitLab : GitLab) (forgejo : Forgejo) :
    gitHub.forge.Confirms (Duration.seconds 120 + gitHub.timeouts.branch.longest)
      (gitHub.timeouts.fork.longest + gitHub.timeouts.forkReady.longest) ∧
    gitLab.forge.Confirms (Duration.seconds 120 + gitLab.timeouts.branch.longest)
      (gitLab.timeouts.fork.longest + gitLab.timeouts.forkReady.longest) ∧
    forgejo.forge.Confirms (Duration.seconds 120 + forgejo.timeouts.branch.longest)
      forgejo.timeouts.fork.longest ∧
    (∀ repo number, (gitLab.forge.mergePullRequest repo number).Within
      (Duration.seconds 60 + gitLab.timeouts.branch.longest)) ∧
    (∀ repo, (gitLab.forge.deleteRepository repo).Within
      (Duration.seconds 120 + gitLab.timeouts.delete.longest)) := by
  have htwo : ∀ o : WaitOptions, Exchange.requestTimeout + (Exchange.requestTimeout + o.longest) ≤
      Duration.seconds 120 + o.longest := fun o => Nat.le_of_eq (Nat.add_assoc _ _ _).symm
  refine ⟨.of_within ?_ ?_, .of_within ?_ ?_, .of_within ?_ ?_, ?_, ?_⟩
  · exact fun _ _ _ _ => GitHub.createBranch_within.mono (htwo _)
  · exact fun _ _ => GitHub.forkRepository_within
  · exact fun _ _ _ _ => GitLab.createBranch_within.mono (htwo _)
  · exact fun _ _ => GitLab.forkRepository_within
  · exact fun _ _ _ _ => Forgejo.createBranch_within.mono (htwo _)
  · exact fun _ _ => Forgejo.forkRepository_within
  · exact fun _ _ => GitLab.mergePullRequest_within
  · exact fun _ => GitLab.deleteRepository_within.mono (htwo _)

end ForgeChores
