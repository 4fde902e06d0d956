import ForgeChores.CommandLine.Command
import ForgeChores.Proofs.Activity

/-!
# ForgeChores.Proofs.CommandLine.Reading

No option is taken without its check. One word keeps that of what has been read
(`Scan.Checked.meetWord`), and so do all of them (`Scan.Checked.words`), whatever stays open in
between.

* `Grammar.accepts_of_read`: the value of an option passes the check of an option of that name.
* `timeout_of_read`: a timeout on the command line is one that settings may have as well.
-/

namespace ForgeChores
namespace CommandLine

/-- Whether an option may have this value; a flag has an empty one. -/
def OptionSpec.Accepts (spec : OptionSpec) (value : String) : Prop :=
  match spec.kind with
  | .flag => value = ""
  | .value check => check value = .ok ()
  | .request _ => False

/-- What has been taken, and what is still open, belongs to the grammar; what has been taken also
passed its check. -/
structure Scan.Checked (g : Grammar) (s : Scan) : Prop where
  given : ∀ name value, (name, value) ∈ s.given →
    ∃ spec ∈ g.options, spec.name = name ∧ spec.Accepts value
  pending : ∀ p, s.pending = some p → p.spec ∈ g.options

namespace Scan.Checked

variable {g : Grammar} {s t : Scan} {spec : OptionSpec}

theorem start : Scan.start.Checked g :=
  ⟨fun _ _ h => absurd h List.not_mem_nil, fun _ h => by cases h⟩

theorem append {value : String} (h : s.Checked g) (hspec : spec ∈ g.options)
    (hvalue : spec.Accepts value) :
    ({ s with given := s.given ++ [(spec.name, value)] } : Scan).Checked g := by
  refine ⟨fun name v hmem => ?_, h.pending⟩
  rcases List.mem_append.mp hmem with hmem | hmem
  · exact h.given name v hmem
  · cases List.mem_singleton.mp hmem
    exact ⟨spec, hspec, rfl, hvalue⟩

theorem accept {value : String} (h : s.Checked g) (hspec : spec ∈ g.options)
    (ht : s.accept spec value = .ok t) : t.Checked g := by
  unfold Scan.accept at ht
  split at ht
  · cases ht
  · rename_i hkind
    split at ht
    · cases ht
    · cases ht
      exact h.append hspec (by rw [OptionSpec.Accepts, hkind])
  · rename_i check hkind
    split at ht
    · cases ht
    · split at ht
      · rename_i hcheck
        cases ht
        exact h.append hspec (by rw [OptionSpec.Accepts, hkind]; exact hcheck)
      · cases ht

theorem settle (h : s.Checked g) (ht : s.settle = .ok t) : t.Checked g := by
  unfold Scan.settle at ht
  split at ht
  · cases ht
    exact h
  · cases ht
  · rename_i spec value hpending
    have hclosed : ({ s with pending := none } : Scan).Checked g :=
      ⟨h.given, fun _ hp => by cases hp⟩
    exact hclosed.accept (h.pending _ hpending) ht

theorem meet {attached : Option String} (h : s.Checked g) (hspec : spec ∈ g.options)
    (ht : s.meet spec attached = .ok t) : t.Checked g := by
  unfold Scan.meet at ht
  split at ht
  · obtain ⟨u, hu, hrest⟩ := except_bind_eq_ok.mp ht
    cases hrest
    exact ⟨(h.settle hu).given, fun _ hp => by cases hp; exact hspec⟩
  · obtain ⟨u, hu, hrest⟩ := except_bind_eq_ok.mp ht
    exact (h.settle hu).accept hspec hrest

theorem meetLong {word : List Char} (h : s.Checked g) (ht : s.meetLong g word = .ok t) :
    t.Checked g := by
  unfold Scan.meetLong at ht
  simp only at ht
  split at ht
  · cases ht
  · rename_i spec hfind
    have hspec := List.mem_of_find?_eq_some hfind
    split at ht
    · exact h.meet hspec ht
    · cases ht
    · exact h.meet hspec ht

theorem meetLetters {letters : List Char} (h : s.Checked g)
    (ht : s.meetLetters g letters = .ok t) : t.Checked g := by
  induction letters generalizing s with
  | nil =>
    cases ht
    exact h
  | cons letter rest ih =>
    unfold Scan.meetLetters at ht
    split at ht
    · cases ht
    · rename_i spec hfind
      have hspec := List.mem_of_find?_eq_some hfind
      split at ht
      · exact h.meet hspec ht
      · exact h.meet hspec ht
      · exact h.meet hspec ht
      · obtain ⟨u, hu, hrest⟩ := except_bind_eq_ok.mp ht
        exact ih (h.meet hspec hu) hrest

theorem meetPositional {word : String} (h : s.Checked g)
    (ht : s.meetPositional g word = .ok t) : t.Checked g := by
  unfold Scan.meetPositional at ht
  split at ht
  · obtain ⟨u, hu, hrest⟩ := except_bind_eq_ok.mp ht
    cases hrest
    exact ⟨(h.settle hu).given, (h.settle hu).pending⟩
  · split at ht
    · cases ht
    · cases ht

theorem meetPlain {word : String} (h : s.Checked g) (ht : s.meetPlain g word = .ok t) :
    t.Checked g := by
  unfold Scan.meetPlain at ht
  split at ht
  · rename_i spec hpending
    cases ht
    have hspec := h.pending _ hpending
    exact ⟨h.given, fun _ hp => by cases hp; exact hspec⟩
  · exact h.meetPositional ht

theorem meetWord {word : String} (h : s.Checked g) (ht : s.meetWord g word = .ok t) :
    t.Checked g := by
  unfold Scan.meetWord at ht
  split at ht
  · exact h.meetPositional ht
  · split at ht
    · cases ht
      exact ⟨h.given, h.pending⟩
    · exact h.meetLong ht
    · exact h.meetPlain ht
    · exact h.meetLetters ht
    · exact h.meetPlain ht

theorem words {l : List String} {command : Option (String × List String)} (h : s.Checked g)
    (ht : Scan.words g l s = .ok (t, command)) : t.Checked g := by
  induction l generalizing s with
  | nil =>
    cases ht
    exact h
  | cons word rest ih =>
    unfold Scan.words at ht
    split at ht
    · cases ht
      exact h
    · obtain ⟨u, hu, hrest⟩ := except_bind_eq_ok.mp ht
      exact ih (h.meetWord hu) hrest

end Scan.Checked

/-! ## Options that were given -/

theorem Grammar.accepts_of_read {g : Grammar} {l : List String} {v : Given} {name value : String}
    (hv : g.read l = .ok v) (hvalue : v.option? name = some value) :
    ∃ spec ∈ g.options, spec.name = name ∧ spec.Accepts value := by
  obtain ⟨⟨s, command⟩, hs, hrest⟩ := except_bind_eq_ok.mp hv
  obtain ⟨t, ht, hgiven⟩ := except_bind_eq_ok.mp hrest
  cases hgiven
  obtain ⟨before, after, hsplit, -⟩ := List.lookup_eq_some_iff.mp hvalue
  have hmem : (name, value) ∈ t.given := by simp [show t.given = _ from hsplit]
  exact ((Scan.Checked.start.words hs).settle ht).given name value hmem

theorem acceptedTimeout_eq_ok {value : String} (h : acceptedTimeout value = .ok ()) :
    ∃ n, seconds? value = some n ∧ 1 ≤ n ∧ n ≤ Settings.maxTimeout := by
  unfold acceptedTimeout at h
  split at h
  · rename_i n hn
    split at h
    · rename_i hbounds
      simp only [Bool.and_eq_true, decide_eq_true_eq] at hbounds
      exact ⟨n, hn, hbounds⟩
    · cases h
  · cases h

theorem timeout_of_accepts {spec : OptionSpec} {value : String}
    (hspec : spec ∈ Command.Kind.status.grammar.options) (hname : spec.name = "timeout")
    (hvalue : spec.Accepts value) : acceptedTimeout value = .ok () := by
  have hmem : spec = providerOption ∨ spec = ⟨"timeout", none, .value acceptedTimeout⟩ ∨
      spec = ⟨"interval", none, .value someSeconds⟩ ∨ spec = ⟨"debug", none, .flag⟩ ∨
      spec = ⟨"config", none, .value somePath⟩ ∨ spec = helpOption Command.Kind.status.name := by
    simpa [Command.Kind.grammar, Command.Kind.options, globalOptions] using hspec
  -- of the six options only one goes by that name
  rcases hmem with rfl | rfl | rfl | rfl | rfl | rfl
  · simp [providerOption] at hname
  · exact hvalue
  · simp at hname
  · simp at hname
  · simp at hname
  · simp [helpOption] at hname

theorem ofGiven_eq_status {k : Command.Kind} {v : Given} {target : Target} {sha name : String}
    {timeout interval : Option Nat}
    (h : Command.ofGiven k v = .ok (.status target sha name timeout interval)) :
    k = .status ∧ timeout = (v.option? "timeout").bind seconds? := by
  cases k with
  | status =>
    obtain ⟨_, _, h⟩ := except_bind_eq_ok.mp h
    obtain ⟨_, _, h⟩ := except_bind_eq_ok.mp h
    obtain ⟨_, _, h⟩ := except_bind_eq_ok.mp h
    cases h
    exact ⟨rfl, rfl⟩
  | _ => simp [Command.ofGiven, except_bind_eq_ok, pure, Except.pure] at h

theorem timeout_of_read {words : List String} {call : Call} {target : Target} {sha name : String}
    {timeout interval : Option Nat} (h : Call.read words = .ok call)
    (hcommand : call.command = .status target sha name timeout interval) :
    ∀ n, timeout = some n → 1 ≤ n ∧ n ≤ Settings.maxTimeout := by
  intro n hn
  obtain ⟨⟨outer, rest⟩, -, hrest⟩ := except_bind_eq_ok.mp h
  rcases rest with _ | ⟨word, words⟩
  · -- without a command the call is refused, whatever stands before
    obtain ⟨_, _, herror⟩ := except_bind_eq_ok.mp hrest
    cases herror
  · simp only at hrest
    split at hrest
    · cases hrest
    · obtain ⟨v, hv, hrest⟩ := except_bind_eq_ok.mp hrest
      obtain ⟨command, hc, hrest⟩ := except_bind_eq_ok.mp hrest
      obtain ⟨_, _, hcall⟩ := except_bind_eq_ok.mp hrest
      cases hcall
      subst hcommand
      obtain ⟨rfl, rfl⟩ := ofGiven_eq_status hc
      obtain ⟨value, hvalue, hseconds⟩ := Option.bind_eq_some_iff.mp hn
      obtain ⟨spec, hspec, hname, haccepts⟩ := Grammar.accepts_of_read hv hvalue
      obtain ⟨m, hm, hbounds⟩ := acceptedTimeout_eq_ok (timeout_of_accepts hspec hname haccepts)
      cases hm.symm.trans hseconds
      exact hbounds

end CommandLine
end ForgeChores
