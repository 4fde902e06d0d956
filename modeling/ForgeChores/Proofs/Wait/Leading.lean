import ForgeChores.Proofs.Activity
import ForgeChores.Proofs.Wait.Polling
import ForgeChores.Wait.Status

/-!
# ForgeChores.Proofs.Wait.Leading

Where a wait leaves the state behind. A wait does nothing to the state but run its checks, so what
relates the states around every check, and goes on from one check to the next, relates the states
around the wait (`poll_leads`), whatever its options, its outcome and the limits of its checks.
`forStatus_leads` says the same of the two waits for a status.
-/

namespace ForgeChores

variable {σ ε δ α β : Type} {R : σ → σ → Prop}

/-- The states around the attempt are related, whatever limit is set. -/
def Attempt.Leads (R : σ → σ → Prop) (m : Attempt σ ε α) : Prop :=
  ∀ limit s, R s (m.run limit s).state

/-- The states around the task are related. -/
def Task.Leads (R : σ → σ → Prop) (m : Task σ ε α) : Prop := ∀ s, R s (m s).state

namespace Attempt

theorem leads_pure (hrefl : ∀ s, R s s) (a : α) : (Pure.pure a : Attempt σ ε α).Leads R :=
  fun _ s => hrefl s

theorem leads_step {f : σ → Nat × Except ε α × σ} (h : ∀ s, R s (f s).2.2) : (step f).Leads R := by
  intro limit s
  have hstate : ((step f).run limit s).state = (f s).2.2 := by
    simp only [step, stepEnding]
    cases limit with
    | none => cases (f s).2.1 <;> rfl
    | some b =>
      simp only
      split
      · cases (f s).2.1 <;> rfl
      · rfl
  rw [hstate]
  exact h s

theorem Leads.bind (htrans : ∀ s t u, R s t → R t u → R s u) {m : Attempt σ ε α}
    {f : α → Attempt σ ε β} (hm : m.Leads R) (hf : ∀ a, (f a).Leads R) : (m >>= f).Leads R := by
  intro limit s
  show R s (andThen f (m.run limit s)).state
  have hfirst := hm limit s
  rcases hrun : m.run limit s with ⟨a | e | hcut, spent, s'⟩
  · rw [hrun] at hfirst
    exact htrans _ _ _ hfirst (hf a (limit.map (· - spent)) s')
  · rw [hrun] at hfirst
    exact hfirst
  · rw [hrun] at hfirst
    exact hfirst

end Attempt

namespace Task

theorem Leads.bind (htrans : ∀ s t u, R s t → R t u → R s u) {m : Task σ ε α}
    {f : α → Task σ ε β} (hm : m.Leads R) (hf : ∀ a, (f a).Leads R) : (m >>= f).Leads R := by
  intro s
  have hfirst := hm s
  rcases hrun : m s with ⟨e | a, spent, s'⟩
  · rw [hrun] at hfirst
    rw [bind_of_error hrun]
    exact hfirst
  · rw [hrun] at hfirst
    rw [bind_of_ok hrun]
    exact htrans _ _ _ hfirst (hf a s')

theorem Leads.mapError {m : Task σ ε α} {f : ε → δ} (hm : m.Leads R) :
    (Task.mapError f m).Leads R := hm

end Task

namespace Wait

variable {describe : ε → String} {what name : String} {o appear complete : WaitOptions}

theorem poll_leads (htrans : ∀ s t u, R s t → R t u → R s u)
    {check : Attempt σ ε (Option α)} (hcheck : check.Leads R) :
    (poll describe what o check).Leads R := by
  have hround : ∀ {p q : Progress σ} {r : Option α}, round describe o check p = (r, q) →
      R p.state q.state := by
    intro p q r h
    rw [state_of_round h]
    exact hcheck _ p.state
  intro s
  exact poll_induction (motive := fun p _ t => R p.state t) (fun h => hround h)
    (fun h => hround h) (fun h _ hrest => htrans _ _ _ (hround h) hrest) s

section Status

variable {report : Attempt σ ε (List CommitStatus)}

theorem appeared_leads (hrefl : ∀ s, R s s) (htrans : ∀ s t u, R s t → R t u → R s u)
    (hreport : report.Leads R) : (appeared name report).Leads R :=
  hreport.bind htrans fun _ => Attempt.leads_pure hrefl _

/-- `R` on the first part of a state that has something noted beside. -/
def OnFirst (R : σ → σ → Prop) (s t : σ × Option StatusState) : Prop := R s.1 t.1

theorem noteFinished_leads (hrefl : ∀ s, R s s) (htrans : ∀ s t u, R s t → R t u → R s u)
    (statuses : List CommitStatus) :
    (noteFinished name statuses : Attempt _ ε _).Leads (OnFirst R) := by
  have hpure : ∀ a : Option Unit, (Pure.pure a : Attempt _ ε _).Leads (OnFirst R) :=
    Attempt.leads_pure fun s => hrefl s.1
  unfold noteFinished
  split
  · rename_i c _
    split
    · exact hpure none
    · have hnote : (Attempt.note (some c.state) : Attempt _ ε _).Leads (OnFirst R) :=
        Attempt.leads_step fun s => hrefl s.1
      exact hnote.bind (fun s t u => htrans s.1 t.1 u.1) fun _ => hpure (some ())
  · exact hpure none

theorem finished_leads (hrefl : ∀ s, R s s) (htrans : ∀ s t u, R s t → R t u → R s u)
    (hreport : report.Leads R) : (finished name report).Leads (OnFirst R) := by
  have hfirst : report.onFirst.Leads (OnFirst R) := fun limit s => hreport limit s.1
  exact hfirst.bind (fun s t u => htrans s.1 t.1 u.1) (noteFinished_leads hrefl htrans)

theorem forStatus_leads (hrefl : ∀ s, R s s) (htrans : ∀ s t u, R s t → R t u → R s u)
    (hreport : report.Leads R) : (forStatus describe name appear complete report).Leads R := by
  have happeared : (poll describe (toAppear name) appear (appeared name report)).Leads R :=
    poll_leads htrans (appeared_leads hrefl htrans hreport)
  have hfinished : (Task.noted none
      (poll describe (toComplete name) complete (finished name report))).Leads R := by
    intro s
    exact poll_leads (R := OnFirst R) (fun s t u => htrans s.1 t.1 u.1)
      (finished_leads hrefl htrans hreport) (s, none)
  exact happeared.bind htrans fun _ => hfinished.bind htrans fun _ => fun s => hrefl s

end Status
end Wait
end ForgeChores
