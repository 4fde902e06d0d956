import ForgeChores.Proofs.Forge.BranchOutcome
import ForgeChores.Proofs.Forge.PullRequestClosing

/-!
# ForgeChores.Proofs.Forge.ClosingSteps

The steps by which a pull request is closed, and what has to come before each of them.

A look is first, then comes the removal of the branch that it reports, and the closing is last. A
step succeeds or not by the reply to it alone (`Step.Succeeds`), and the next one is taken after a
success only. So what comes of them all is what the last one comes to.

* `Conducts`: which steps are taken and what they come to.
* `comeTo_concat`: steps of which all but the last succeed come to what that one does.
* `Course.conducts`: each course that a closing can take is one of such steps.
* `closePullRequest_steps`: so every forge takes them, with requests of its own.
-/

namespace ForgeChores
namespace PullClosing

inductive Step where
  | look
  | remove (pull : PullRequest)
  | close (context : String) (q : Request)

namespace Step

def request (p : PullClosing) : Step → Request
  | look => p.look
  | remove pull => p.removal pull
  | close _ q => q

/-- What the reply to it comes to. -/
def outcome (p : PullClosing) : Step → Reply → Except ForgeError Unit
  | look, reply => (p.pulled reply).map fun _ => ()
  | remove pull, reply => (p.removed pull reply).map fun _ => ()
  | close context q, reply => (Exchange.outcome context q reply).2.map fun _ => ()

/-- The reply says that it is done. A branch that is not there need not be removed. -/
def Succeeds (p : PullClosing) : Step → Reply → Prop
  | look, reply => reply.read? p.decoder ≠ none
  | remove _, reply => reply.success? ≠ none ∨ reply.IsMissing
  | close _ _, reply => reply.success? ≠ none

end Step

variable {p : PullClosing} {x : Exchange} {pull : PullRequest} {r : Except ForgeError Unit}
  {reply : Reply}

/-- The pull request can be read, and the branch that it reports is gone or need not go. -/
def Cleared (p : PullClosing) (x : Exchange) : Prop :=
  ∃ pull, (x.replyAt 0).read? p.decoder = some pull ∧
    (p.Removes pull → (Step.remove pull).Succeeds p (x.replyAt 1))

/-- The steps of a closing, in their order. -/
def taken (removal : Option PullRequest) (closing : Option (String × Request)) : List Step :=
  .look :: ((removal.map .remove).toList ++ (closing.map fun c => .close c.1 c.2).toList)

/-- Each step is done, as far as the reply to it says. -/
def Succeed (p : PullClosing) (x : Exchange) (steps : List Step) : Prop :=
  ∀ i s, steps[i]? = some s → Step.Succeeds p s (x.replyAt i)

/-- What the steps come to: a failure is that of the last one. -/
structure ComeTo (p : PullClosing) (x : Exchange) (steps : List Step) (r : Except ForgeError Unit) :
    Prop where
  ok_iff : r = .ok () ↔ p.Succeed x steps
  error_last : ∀ e, r = .error e → ∃ i s, i + 1 = steps.length ∧ steps[i]? = some s ∧
    Step.outcome p s (x.replyAt i) = .error e

/-- How a pull request is closed: which steps are taken, and what they come to. -/
structure Conducts (p : PullClosing) (x : Exchange) (removal : Option PullRequest)
    (closing : Option (String × Request)) (r : Except ForgeError Unit) : Prop where
  removal_iff : ∀ pull, removal = some pull ↔
    (x.replyAt 0).read? p.decoder = some pull ∧ p.Removes pull
  closing_iff : ∀ c, closing = some c ↔ p.close = some c ∧ p.Cleared x
  comeTo : p.ComeTo x (taken removal closing) r

/-! ## What comes of a step -/

theorem ignoreNotFound_ok_iff {result : Except ForgeError Unit} :
    (ForgeError.ignoreNotFound result).map (fun _ => ()) = .ok () ↔
      result = .ok () ∨ FailsMissing result := by
  rw [← ignoreNotFound_eq_none_iff]
  cases result with
  | ok _ => simp [ForgeError.ignoreNotFound, Except.map]
  | error e =>
    by_cases he : e.isNotFound = true
    · simp [ForgeError.ignoreNotFound, he, Except.map]
    · simp [ForgeError.ignoreNotFound, he, Except.map]

theorem Step.outcome_eq_ok_iff {s : Step} :
    s.outcome p reply = .ok () ↔ s.Succeeds p reply := by
  cases s with
  | look =>
    show (p.pulled reply).map _ = _ ↔ reply.read? p.decoder ≠ none
    rw [Option.ne_none_iff_exists']
    simp only [← pulled_eq_ok_iff]
    cases p.pulled reply with
    | error e => simp [Except.map]
    | ok pull => simp [Except.map]
  | remove pull =>
    refine ignoreNotFound_ok_iff.trans (or_congr Exchange.map_unit_eq_ok_iff ?_)
    exact missing_map_iff.trans Exchange.missing_outcome_iff
  | close context q => exact Exchange.map_unit_eq_ok_iff

/-! ## What comes of the steps -/

theorem succeed_nil : p.Succeed x [] := by
  intro i s hs
  cases hs

theorem succeed_concat (before : List Step) (s : Step) :
    p.Succeed x (before ++ [s]) ↔
      p.Succeed x before ∧ s.Succeeds p (x.replyAt before.length) := by
  constructor
  · intro h
    refine ⟨fun i s' hs' => h i s' ?_, h before.length s (by simp)⟩
    rw [List.getElem?_append_left (List.getElem?_eq_some_iff.mp hs').1]
    exact hs'
  · rintro ⟨hbefore, hlast⟩ i s' hs'
    rcases Nat.lt_or_ge i before.length with hi | hi
    · rw [List.getElem?_append_left hi] at hs'
      exact hbefore i s' hs'
    · rw [List.getElem?_append_right hi, List.getElem?_singleton] at hs'
      obtain ⟨hi', hlast'⟩ := Option.ite_none_right_eq_some.mp hs'
      cases hlast'
      obtain rfl : i = before.length := by omega
      exact hlast

theorem comeTo_concat (before : List Step) (s : Step) (hbefore : p.Succeed x before)
    (hr : r = s.outcome p (x.replyAt before.length)) : p.ComeTo x (before ++ [s]) r where
  ok_iff := by
    rw [hr, Step.outcome_eq_ok_iff, succeed_concat]
    exact (and_iff_right hbefore).symm
  error_last e he := ⟨before.length, s, by simp, by simp, hr.symm.trans he⟩

/-- The closing comes last, where there is one. -/
theorem comeTo_closed (before : List Step) (hbefore : p.Succeed x before)
    (hlast : p.ComeTo x before (.ok ())) :
    p.ComeTo x (before ++ (p.close.map fun c => .close c.1 c.2).toList)
      (p.closed (x.replyAt before.length)) := by
  unfold closed
  cases p.close with
  | none =>
    rw [Option.map_none, Option.toList_none, List.append_nil]
    exact hlast
  | some c => exact comeTo_concat before _ hbefore rfl

/-! ## The steps of a course -/

theorem Cleared.of_read (hread : (x.replyAt 0).read? p.decoder = some pull) :
    p.Cleared x ↔ (p.Removes pull → (Step.remove pull).Succeeds p (x.replyAt 1)) := by
  unfold Cleared
  rw [hread]
  simp

theorem removal_iff_of_read (hread : (x.replyAt 0).read? p.decoder = some pull)
    (hremoves : p.Removes pull) (pull' : PullRequest) :
    some pull = some pull' ↔ (x.replyAt 0).read? p.decoder = some pull' ∧ p.Removes pull' := by
  rw [hread]
  constructor
  · rintro ⟨rfl⟩
    exact ⟨rfl, hremoves⟩
  · exact And.left

theorem comeTo_look (hread : (x.replyAt 0).read? p.decoder = some pull) :
    p.Succeed x [.look] ∧ p.ComeTo x [.look] (.ok ()) := by
  have hlook : Step.look.Succeeds p (x.replyAt 0) := by
    show (x.replyAt 0).read? p.decoder ≠ none
    rw [hread]
    exact nofun
  refine ⟨(succeed_concat [] _).mpr ⟨succeed_nil, hlook⟩, ?_⟩
  exact comeTo_concat [] _ succeed_nil (Step.outcome_eq_ok_iff.mpr hlook).symm

theorem Course.conducts {sent : List Request} (h : p.Course x sent r) :
    ∃ removal closing, p.Conducts x removal closing r ∧
      sent = (taken removal closing).map (Step.request p) := by
  cases h with
  | unread hpulled =>
    have hread : ∀ pull, ¬ (x.replyAt 0).read? p.decoder = some pull := by
      intro pull hread
      rw [pulled_eq_ok_iff.mpr hread] at hpulled
      cases hpulled
    refine ⟨none, none, ⟨fun pull => ?_, fun c => ?_, ?_⟩, rfl⟩
    · exact iff_of_false nofun fun h => hread pull h.1
    · exact iff_of_false nofun fun ⟨_, pull, h, _⟩ => hread pull h
    · refine comeTo_concat [] .look succeed_nil ?_
      rw [Step.outcome, List.length_nil, hpulled]
      rfl
  | @kept pull e hpulled hremoves hremoved =>
    have hread : (x.replyAt 0).read? p.decoder = some pull := pulled_eq_ok_iff.mp hpulled
    have hout : (Step.remove pull).outcome p (x.replyAt 1) = .error e := by
      rw [Step.outcome, hremoved]
      rfl
    refine ⟨some pull, none, ⟨removal_iff_of_read hread hremoves, fun c => ?_, ?_⟩, rfl⟩
    · refine iff_of_false nofun fun ⟨_, hcleared⟩ => ?_
      -- nothing is closed before the branch is gone
      have hdone := (Cleared.of_read hread).mp hcleared hremoves
      rw [← Step.outcome_eq_ok_iff, hout] at hdone
      cases hdone
    · exact comeTo_concat [.look] _ (comeTo_look hread).1 hout.symm
  | @removed pull gone hpulled hremoves hremoved =>
    have hread : (x.replyAt 0).read? p.decoder = some pull := pulled_eq_ok_iff.mp hpulled
    have hout : (Step.remove pull).outcome p (x.replyAt 1) = .ok () := by
      rw [Step.outcome, hremoved]
      rfl
    have hdone : (Step.remove pull).Succeeds p (x.replyAt 1) := Step.outcome_eq_ok_iff.mp hout
    have hcleared : p.Cleared x := (Cleared.of_read hread).mpr fun _ => hdone
    refine ⟨some pull, p.close, ⟨removal_iff_of_read hread hremoves, fun c => ?_, ?_⟩, ?_⟩
    · exact (and_iff_left hcleared).symm
    · refine comeTo_closed [.look, .remove pull] ?_ ?_
      · exact (succeed_concat [.look] _).mpr ⟨(comeTo_look hread).1, hdone⟩
      · exact comeTo_concat [.look] _ (comeTo_look hread).1 hout.symm
    · unfold taken closing
      cases p.close <;> rfl
  | @spared pull hpulled hremoves =>
    have hread : (x.replyAt 0).read? p.decoder = some pull := pulled_eq_ok_iff.mp hpulled
    have hcleared : p.Cleared x := (Cleared.of_read hread).mpr fun h => absurd h hremoves
    refine ⟨none, p.close, ⟨fun pull' => ?_, fun c => ?_, ?_⟩, ?_⟩
    · refine iff_of_false nofun fun ⟨hread', hremoves'⟩ => ?_
      rw [hread] at hread'
      cases hread'
      exact hremoves hremoves'
    · exact (and_iff_left hcleared).symm
    · exact comeTo_closed [.look] (comeTo_look hread).1 (comeTo_look hread).2
    · unfold taken closing
      cases p.close <;> rfl

/-- The pull request is closed in these steps where it can be asked for at all. Elsewhere nothing is
sent. -/
def ClosesBySteps (p : PullClosing) (x : Exchange) (t : Timed Exchange (Except ForgeError Unit)) :
    Prop :=
  if p.lookUrl.isHttp = true then
    ∃ removal closing, p.Conducts x removal closing t.result ∧
      t.state = x.after ((taken removal closing).map (Step.request p))
  else ∃ e, t = ⟨.error e, 0, x⟩

theorem closesBySteps_run (p : PullClosing) (x : Exchange) : p.ClosesBySteps x (p.run x) := by
  unfold ClosesBySteps
  by_cases hlook : p.lookUrl.isHttp = true
  · rw [if_pos hlook]
    obtain ⟨sent, hcourse, hstate⟩ := course_run hlook x
    obtain ⟨removal, closing, hconducts, rfl⟩ := hcourse.conducts
    exact ⟨removal, closing, hconducts, hstate⟩
  · rw [if_neg hlook]
    exact run_of_not_isHttp hlook x

end PullClosing

/-- Every forge closes a pull request in these steps. The last one is an update of the pull request,
which GitHub does without, and Forgejo alone removes nothing for a source without a name. -/
theorem closePullRequest_steps (x : Exchange) (repo : String) (number : Nat) :
    (∀ g : GitHub, let p := g.pullClosing repo number
      p.ClosesBySteps x (g.forge.closePullRequest repo number x) ∧
        p.closing = [] ∧ ∀ pull, p.Removes pull) ∧
    (∀ g : GitLab, let p := g.pullClosing repo number
      p.ClosesBySteps x (g.forge.closePullRequest repo number x) ∧
        p.closing = [.put p.lookUrl (Json.object [("state_event", .string "close")])] ∧
        ∀ pull, p.Removes pull) ∧
    ∀ g : Forgejo, let p := g.pullClosing repo number
      p.ClosesBySteps x (g.forge.closePullRequest repo number x) ∧
        p.closing = [.patch p.lookUrl (Json.object [("state", .string "closed")])] ∧
        ∀ pull, p.Removes pull ↔ pull.sourceBranch ≠ "" := by
  refine ⟨fun g => ⟨?_, rfl, fun pull => ?_⟩, fun g => ⟨?_, rfl, fun pull => ?_⟩,
    fun g => ⟨?_, rfl, fun pull => ?_⟩⟩
  · show PullClosing.ClosesBySteps _ x (Task.ofAttempt (g.closePullRequest repo number) x)
    rw [g.closePullRequest_eq_run]
    exact PullClosing.closesBySteps_run _ x
  · exact fun h => Bool.false_ne_true h.1
  · show PullClosing.ClosesBySteps _ x (Task.ofAttempt (g.closePullRequest repo number) x)
    rw [g.closePullRequest_eq_run]
    exact PullClosing.closesBySteps_run _ x
  · exact fun h => Bool.false_ne_true h.1
  · show PullClosing.ClosesBySteps _ x (Task.ofAttempt (g.closePullRequest repo number) x)
    rw [g.closePullRequest_eq_run]
    exact PullClosing.closesBySteps_run _ x
  · exact not_congr (and_iff_right rfl)

end ForgeChores
