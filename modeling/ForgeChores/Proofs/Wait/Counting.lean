import ForgeChores.Proofs.Wait.Polling
import ForgeChores.Settings.Valid

/-!
# ForgeChores.Proofs.Wait.Counting

How high a wait counts. The counter of attempts goes up by one with each check, so it ends at the
number of checks as 32 bits count them (`Polling.attempts_eq`). The intervals that fit bound that
number.

* `WaitOptions.bounded_of_seconds`: a wait of a week at most that checks no more than once per
  second has the deadline it asks for and begins 604801 checks at most.
-/

namespace ForgeChores
namespace Wait

variable {σ ε α : Type} {describe : ε → String} {what : String} {o : WaitOptions}
  {check : Attempt σ ε (Option α)}

namespace Polling

variable {p : Progress σ} {begun : List (Progress σ)} {t : Timed σ (Except WaitTimeout α)}

/-- The counter shows how many checks were begun before. -/
theorem attempts_of_mem (h : Polling describe what o check p begun t) :
    ∀ c ∈ begun, ∃ n < begun.length, c.attempts = p.attempts + UInt32.ofNat n := by
  induction h with
  | found _ => simp
  | gaveUp _ _ => simp
  | again hr _ _ ih =>
    have hone := round_attempts hr
    intro c hc
    rcases List.mem_cons.mp hc with rfl | hc
    · exact ⟨0, Nat.succ_pos _, by simp⟩
    · obtain ⟨n, hn, hcount⟩ := ih c hc
      refine ⟨n + 1, Nat.succ_lt_succ hn, ?_⟩
      rw [hcount, Progress.paused, hone, UInt32.ofNat_add, UInt32.add_assoc]
      congr 1
      exact UInt32.add_comm _ _

/-- A wait that is given up reports how many checks it began. -/
theorem attempts_eq {e : WaitTimeout} (h : Polling describe what o check p begun t)
    (he : t.result = .error e) : e.attempts = p.attempts + UInt32.ofNat begun.length := by
  induction h with
  | found _ => cases he
  | gaveUp hr _ =>
    cases he
    exact round_attempts hr
  | again hr _ _ ih =>
    have hone := round_attempts hr
    rw [ih he, Progress.paused, hone, List.length_cons, UInt32.ofNat_add, UInt32.add_assoc]
    congr 1
    exact UInt32.add_comm _ _

end Polling
end Wait

namespace WaitOptions

/-- Whatever is waited for, `bound` checks are the most that are begun, and the counter of attempts
stays within it: while a check runs, and in the report of a wait that is given up. -/
def ChecksAtMost (o : WaitOptions) (bound : Nat) : Prop :=
  ∀ (σ ε α : Type) (describe : ε → String) (what : String) (check : Attempt σ ε (Option α)) (s : σ),
    ∃ begun,
      Wait.Polling describe what o check ⟨0, 0, none, s⟩ begun (Wait.poll describe what o check s) ∧
      begun.length ≤ bound ∧ (∀ c ∈ begun, c.attempts.toNat + 1 ≤ bound) ∧
      ∀ e, (Wait.poll describe what o check s).result = .error e →
        e.attempts.toNat = begun.length

variable {o : WaitOptions}

/-- As long as 32 bits count the checks, the counter does. -/
theorem checksAtMost (hi : 0 < o.interval) (hcounts : Wait.roundsLeft o 0 < UInt32.size) :
    o.ChecksAtMost (Wait.roundsLeft o 0) := by
  intro σ ε α describe what check s
  obtain ⟨begun, hbegun⟩ : ∃ begun, Wait.Polling describe what o check ⟨0, 0, none, s⟩ begun
      (Wait.poll describe what o check s) := Wait.polling_poll hi s
  have hlength : begun.length ≤ Wait.roundsLeft o 0 := hbegun.length_le hi
  refine ⟨begun, hbegun, hlength, ?_, ?_⟩
  · intro c hc
    obtain ⟨n, hn, hcount⟩ := hbegun.attempts_of_mem c hc
    rw [hcount, UInt32.zero_add, UInt32.toNat_ofNat_of_lt' (by omega)]
    omega
  · intro e he
    rw [hbegun.attempts_eq he, UInt32.zero_add, UInt32.toNat_ofNat_of_lt' (by omega)]

theorem ChecksAtMost.mono {m n : Nat} (h : o.ChecksAtMost m) (hmn : m ≤ n) : o.ChecksAtMost n := by
  intro σ ε α describe what check s
  obtain ⟨begun, hbegun, hlength, hcounter, hreport⟩ := h σ ε α describe what check s
  exact ⟨begun, hbegun, Nat.le_trans hlength hmn, fun c hc => Nat.le_trans (hcounter c hc) hmn,
    hreport⟩

/-- A wait in which nothing overflows: the clock reaches its deadline, and 32 bits are more than
enough for the counter. -/
structure Bounded (o : WaitOptions) : Prop where
  reachable : Duration.isReachable o.timeout = true
  deadline : o.deadline = o.timeout
  checks : o.ChecksAtMost 604801

/-- The clock reaches the end of a week, so a wait of that length has the deadline it asks for. -/
theorem reachable_of_le (ht : o.timeout ≤ Duration.seconds Settings.maxTimeout) :
    Duration.isReachable o.timeout = true := by
  have hweek : Duration.seconds Settings.maxTimeout < Duration.seconds (Nat.pow 2 63) := by decide
  exact decide_eq_true (Nat.lt_of_le_of_lt ht hweek)

theorem bounded_of_seconds (hi : Duration.seconds 1 ≤ o.interval)
    (ht : o.timeout ≤ Duration.seconds Settings.maxTimeout) : o.Bounded := by
  have hdeadline : o.deadline = o.timeout := if_pos (reachable_of_le ht)
  have hpos : 0 < o.interval := Nat.lt_of_lt_of_le (by decide) hi
  have hfits : o.deadline + o.interval - 1 < (Settings.maxTimeout + 1) * o.interval := by
    have hspan : o.deadline ≤ Settings.maxTimeout * o.interval := by
      calc o.deadline = o.timeout := hdeadline
        _ ≤ Duration.seconds Settings.maxTimeout := ht
        _ = Settings.maxTimeout * Duration.seconds 1 := by decide
        _ ≤ Settings.maxTimeout * o.interval := Nat.mul_le_mul_left _ hi
    rw [Nat.add_mul, Nat.one_mul]
    omega
  have hrounds : Wait.roundsLeft o 0 ≤ Settings.maxTimeout + 1 := by
    have hdiv := (Nat.div_lt_iff_lt_mul hpos).mpr hfits
    unfold Wait.roundsLeft
    rw [Nat.sub_zero]
    omega
  have hcounts : Wait.roundsLeft o 0 < UInt32.size :=
    Nat.lt_of_le_of_lt hrounds (by decide)
  exact ⟨reachable_of_le ht, hdeadline, ChecksAtMost.mono (checksAtMost hpos hcounts) hrounds⟩

end WaitOptions
end ForgeChores
