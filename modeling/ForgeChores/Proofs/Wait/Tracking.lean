import ForgeChores.Proofs.Wait.Status

/-!
# ForgeChores.Proofs.Wait.Tracking

Whether a status wait ends with the status that it began to wait for.

Phase one ends at the first status whose name contains the given text, and phase two looks for the
first such status anew in every fetch. So the status it ends with may go by another name.

* `endsWith_of_ok`: a final state is that of the first match in the last fetch, whatever its name.
* `tracks_iff`: it is also the state of a status by the name that ended phase one, exactly if the
  first match of the last fetch goes by that name or a status by that name is in the same state.
* `tracks_of_one_name`: it is, if only one name ever matches.
* `forStatus_strays`: another status may end the wait while the one waited for is running.
-/

namespace ForgeChores
namespace Wait

variable {σ ε : Type} {describe : ε → String} {name : String} {appear complete : WaitOptions}
  {report : Attempt σ ε (List CommitStatus)} {s : σ}

theorem Fetch.found?_eq_some_iff {f : Fetch σ} {c : CommitStatus} :
    f.found? report name = some c ↔
      ∃ statuses, f.delivered? report = some statuses ∧
        CommitStatus.find? name statuses = some c := Option.bind_eq_some_iff

/-! ## How a status wait ends -/

/-- The status that ended phase one is `tracked`, and the wait ends at `found`, the first match among
the `statuses` of the last fetch. -/
def EndsWith (describe : ε → String) (name : String) (appear complete : WaitOptions)
    (report : Attempt σ ε (List CommitStatus)) (s : σ) (tracked : CommitStatus)
    (statuses : List CommitStatus) (found : CommitStatus) : Prop :=
  ∃ earlier matching between last,
    Course describe name appear complete report s (earlier ++ [matching]) (between ++ [last])
      (forStatus describe name appear complete report s) ∧
    matching.found? report name = some tracked ∧ last.delivered? report = some statuses ∧
    CommitStatus.find? name statuses = some found ∧ found.state.isPending = false

theorem endsWith_of_ok {state : StatusState}
    (h : (forStatus describe name appear complete report s).result = .ok state) :
    ∃ tracked statuses found,
      EndsWith describe name appear complete report s tracked statuses found ∧
        found.state = state := by
  obtain ⟨first, second, hcourse⟩ := course_of_ok h
  obtain ⟨earlier, matching, between, last, rfl, rfl, hconcluded⟩ := hcourse.concluded h
  obtain ⟨tracked, htracked⟩ := hconcluded.seen
  obtain ⟨found, hfound, rfl⟩ := hconcluded.found
  obtain ⟨statuses, hdelivered, hfind⟩ := Fetch.found?_eq_some_iff.mp hfound
  exact ⟨tracked, statuses, found,
    ⟨earlier, matching, between, last, hcourse, htracked, hdelivered, hfind, hconcluded.final⟩, rfl⟩

section

variable {tracked found : CommitStatus} {statuses : List CommitStatus}

theorem EndsWith.result (h : EndsWith describe name appear complete report s tracked statuses found) :
    (forStatus describe name appear complete report s).result = .ok found.state := by
  obtain ⟨earlier, matching, between, last, hcourse, htracked, hdelivered, hfind, hfinal⟩ := h
  have hfound : last.found? report name = some found :=
    Fetch.found?_eq_some_iff.mpr ⟨statuses, hdelivered, hfind⟩
  cases hresult : (forStatus describe name appear complete report s).result with
  | error e =>
    rcases hcourse.givenUp hresult with ⟨-, hnone, -⟩ | ⟨-, -, hpending⟩
    · rw [hnone matching (by simp)] at htracked
      cases htracked
    · rw [hpending last (by simp) found hfound] at hfinal
      cases hfinal
  | ok state =>
    obtain ⟨_, _, between', last', -, hsecond, hconcluded⟩ := hcourse.concluded hresult
    obtain ⟨-, hlast⟩ := List.append_inj' hsecond rfl
    cases hlast
    obtain ⟨c, hc, rfl⟩ := hconcluded.found
    rw [hfound] at hc
    cases hc
    rfl

theorem EndsWith.unique {tracked' found' : CommitStatus} {statuses' : List CommitStatus}
    (h : EndsWith describe name appear complete report s tracked statuses found)
    (h' : EndsWith describe name appear complete report s tracked' statuses' found') :
    tracked = tracked' ∧ statuses = statuses' := by
  obtain ⟨_, _, _, _, hcourse, htracked, hdelivered, -, -⟩ := h
  obtain ⟨_, _, _, _, hcourse', htracked', hdelivered', -, -⟩ := h'
  obtain ⟨hfirst, hsecond, -⟩ := hcourse.deterministic hcourse'
  obtain ⟨-, hmatching⟩ := List.append_inj' hfirst rfl
  obtain ⟨-, hlast⟩ := List.append_inj' hsecond rfl
  cases hmatching
  cases hlast
  rw [htracked] at htracked'
  rw [hdelivered] at hdelivered'
  exact ⟨Option.some.inj htracked', Option.some.inj hdelivered'⟩

end

/-! ## Whether the status is the one waited for -/

/-- A final state is the state, in the last fetch, of a status by the name that ended phase one. -/
def Tracks (describe : ε → String) (name : String) (appear complete : WaitOptions)
    (report : Attempt σ ε (List CommitStatus)) (s : σ) : Prop :=
  ∀ state, (forStatus describe name appear complete report s).result = .ok state →
    ∃ tracked statuses found,
      EndsWith describe name appear complete report s tracked statuses found ∧
      ∃ c ∈ statuses, c.name = tracked.name ∧ c.state = state

/-- A status wait ends with the status waited for, unless the first match of the last fetch goes by
another name and no status by the name waited for is in the same state. -/
theorem tracks_iff (describe : ε → String) (name : String) (appear complete : WaitOptions)
    (report : Attempt σ ε (List CommitStatus)) (s : σ) :
    Tracks describe name appear complete report s ↔
      ∀ tracked statuses found,
        EndsWith describe name appear complete report s tracked statuses found →
        found.name = tracked.name ∨
          ∃ c ∈ statuses, c ≠ found ∧ c.name = tracked.name ∧ c.state = found.state := by
  constructor
  · intro htracks tracked statuses found hends
    obtain ⟨tracked', statuses', found', hends', c, hc, hname, hstate⟩ :=
      htracks found.state hends.result
    obtain ⟨rfl, rfl⟩ := hends.unique hends'
    by_cases hsame : c = found
    · exact .inl (by rw [← hsame, hname])
    · exact .inr ⟨c, hc, hsame, hname, hstate⟩
  · intro hnamed state hresult
    obtain ⟨tracked, statuses, found, hends, rfl⟩ := endsWith_of_ok hresult
    refine ⟨tracked, statuses, found, hends, ?_⟩
    rcases hnamed tracked statuses found hends with hname | ⟨c, hc, -, hname, hstate⟩
    · obtain ⟨_, _, _, _, -, -, -, hfind, -⟩ := hends
      exact ⟨found, List.mem_of_find?_eq_some hfind, hname, rfl⟩
    · exact ⟨c, hc, hname, hstate⟩

/-- Where only one name ever matches, there is nothing to stray to. -/
theorem tracks_of_one_name
    (h : ∀ f f' : Fetch σ, ∀ c c', f.found? report name = some c →
      f'.found? report name = some c' → c.name = c'.name) :
    Tracks describe name appear complete report s := by
  intro state hresult
  obtain ⟨tracked, statuses, found, hends, rfl⟩ := endsWith_of_ok hresult
  refine ⟨tracked, statuses, found, hends, found, ?_, ?_, rfl⟩
  · obtain ⟨_, _, _, _, -, -, -, hfind, -⟩ := hends
    exact List.mem_of_find?_eq_some hfind
  · obtain ⟨_, matching, _, last, -, htracked, hdelivered, hfind, -⟩ := hends
    exact h last matching found tracked
      (Fetch.found?_eq_some_iff.mpr ⟨statuses, hdelivered, hfind⟩) htracked

/-- Two builds, the second of which is reported late, before the first and finished. The first
fails in the end. -/
def twoBuilds : List (Except String (List CommitStatus)) :=
  [.ok [⟨"linux / build", .pending⟩],
    .ok [⟨"windows / build", .success⟩, ⟨"linux / build", .running⟩],
    .ok [⟨"windows / build", .success⟩, ⟨"linux / build", .failure⟩]]

/-- The wait for the one build ends with the success of the other. -/
theorem forStatus_strays : ¬ Tracks id "build" ⟨1, 10⟩ ⟨1, 10⟩ (scripted twoBuilds) 0 := by
  have hfirst : Polling id (toAppear "build") ⟨1, 10⟩ (appeared "build" (scripted twoBuilds))
      ⟨0, 0, none, 0⟩ [⟨0, 0, none, 0⟩] ⟨.ok (), 0, 1⟩ := by
    have hround : round id ⟨1, 10⟩ (appeared "build" (scripted twoBuilds)) ⟨0, 0, none, 0⟩ =
        (some (), ⟨0, 1, none, 1⟩) := rfl
    exact .found hround
  have hsecond : Polling id (toComplete "build") ⟨1, 10⟩ (finished "build" (scripted twoBuilds))
      ⟨0, 0, none, (1, none)⟩ [⟨0, 0, none, (1, none)⟩] ⟨.ok (), 0, (2, some .success)⟩ := by
    have hround : round id ⟨1, 10⟩ (finished "build" (scripted twoBuilds)) ⟨0, 0, none, (1, none)⟩ =
        (some (), ⟨0, 1, none, (2, some .success)⟩) := rfl
    exact .found hround
  have hends : EndsWith id "build" ⟨1, 10⟩ ⟨1, 10⟩ (scripted twoBuilds) 0
      ⟨"linux / build", .pending⟩
      [⟨"windows / build", .success⟩, ⟨"linux / build", .running⟩] ⟨"windows / build", .success⟩ :=
    ⟨[], .begun ⟨1, 10⟩ 0 0, [], .begun ⟨1, 10⟩ 0 1, .seen hfirst hsecond, rfl, rfl, rfl, rfl⟩
  intro htracks
  obtain ⟨tracked, statuses, found, hends', c, hc, hname, hstate⟩ := htracks .success hends.result
  obtain ⟨rfl, rfl⟩ := hends.unique hends'
  simp only [List.mem_cons, List.not_mem_nil, or_false] at hc
  rcases hc with rfl | rfl
  · exact absurd hname (by decide)
  · exact absurd hstate (by decide)

end Wait
end ForgeChores
