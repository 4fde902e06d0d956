import ForgeChores.Proofs.InMemory.Failing

/-!
# ForgeChores.Proofs.InMemory.Webhooks

Webhooks of repositories in memory.

An action takes webhooks away and leaves the others in their order, or it puts one behind the others
of a repository, under the next id (`hookStep_act`). An id that is used up does not come back, so ids
go up along a repository and are told apart wherever they are (`told_run`). A cleanup takes the first
match away, and the next one goes on behind it (`WithoutFirst.eraseP`), as often as it is repeated
(`run_cleanups`).

* `webhooks_frontToBack`: all of it in every state that a run leads to.
-/

namespace ForgeChores
namespace InMemory

variable {α : Type} {p : Provider} {s s' : InMemory} {repo path host url sha : String}
  {r r' : Repository} {repos : Table String Repository}

/-! ## The webhooks of a repository -/

/-- The webhooks of the repository under `path`; none if there is no repository. -/
def hooksIn (repos : Table String Repository) (path : String) : List Hook :=
  ((repos.get? path).map (·.hooks)).getD []

theorem hooksIn_of_get? (h : repos.get? path = some r) : hooksIn repos path = r.hooks := by
  rw [hooksIn, h]
  rfl

theorem hooksIn_insert (repos : Table String Repository) (at' : String) (r : Repository)
    (path : String) :
    hooksIn (repos.insert at' r) path = if at' = path then r.hooks else hooksIn repos path := by
  unfold hooksIn
  rw [Table.get?_insert]
  split <;> rfl

theorem hooksIn_erase (repos : Table String Repository) (at' path : String) :
    hooksIn (repos.erase at') path = if at' = path then [] else hooksIn repos path := by
  unfold hooksIn
  rw [Table.get?_erase]
  split <;> rfl

theorem sublist_hooksIn {hooks : List Hook} (h : repos.get? path = some r)
    (hhooks : hooks.Sublist r.hooks) : hooks.Sublist (hooksIn repos path) := by
  rw [hooksIn_of_get? h]
  exact hhooks

/-- Where a repository is put with fewer webhooks, there are fewer. -/
theorem hooksIn_insert_sublist {at' : String} (h : r.hooks.Sublist (hooksIn repos at'))
    (path : String) : (hooksIn (repos.insert at' r) path).Sublist (hooksIn repos path) := by
  rw [hooksIn_insert]
  split
  · rename_i hpath
    rw [← hpath]
    exact h
  · exact List.Sublist.refl _

theorem Edit.hooks_sublist {call : Forge.Call} {answer : Forge.Answer}
    (h : Edit sha repo r call answer r') : r'.hooks.Sublist r.hooks := by
  cases h with
  | cleanupWebhooks _ => exact List.eraseP_sublist
  | listCommitStatuses => simp only [hooks_nextReport, List.Sublist.refl]
  | _ => exact List.Sublist.refl _

theorem Outcome.hooks_sublist {call : Forge.Call} {result : Except ForgeError Forge.Answer}
    (h : Outcome s call result repos) (path : String) :
    (hooksIn repos path).Sublist (hooksIn s.repos path) := by
  cases h with
  | failed => exact List.Sublist.refl _
  | edited hget hedit =>
    exact hooksIn_insert_sublist (sublist_hooksIn hget hedit.hooks_sublist) path
  | @forked source target r hsource htarget =>
    exact (hooksIn_insert_sublist (List.nil_sublist _) path).trans
      (hooksIn_insert_sublist (sublist_hooksIn hsource (List.Sublist.refl _)) path)
  | deleted =>
    rw [hooksIn_erase]
    split
    · exact List.nil_sublist _
    · exact List.Sublist.refl _
  | waited huses =>
    rcases huses with rfl | ⟨r, reports, hget, rfl⟩
    · exact List.Sublist.refl _
    · refine hooksIn_insert_sublist ?_ path
      exact sublist_hooksIn hget (List.Sublist.refl _)

/-! ## One action -/

/-- What an action does to webhooks: it takes some away, or it adds one at the end. -/
inductive HookStep (s s' : InMemory) : Prop where
  | fewer (hnext : s.nextHook ≤ s'.nextHook)
      (hhooks : ∀ path, (hooksIn s'.repos path).Sublist (hooksIn s.repos path)) : HookStep s s'
  | added {at' url : String} (hnext : s'.nextHook = s.nextHook + 1)
      (hhooks : ∀ path, hooksIn s'.repos path =
        if at' = path then hooksIn s.repos at' ++ [⟨s.nextHook, url⟩] else hooksIn s.repos path) :
      HookStep s s'

theorem get?_addWebhook (hget : s.get? repo = some r) (url : String) :
    (s.addWebhook repo url).get? repo =
      some { r with hooks := r.hooks ++ [⟨s.nextHook, url⟩] } := by
  simp only [addWebhook, hget]
  exact (Table.get?_insert _ _ _ _).trans (if_pos rfl)

theorem hooksIn_addWebhook (hget : s.get? repo = some r) (url path : String) :
    hooksIn (s.addWebhook repo url).repos path =
      if key repo = path then hooksIn s.repos (key repo) ++ [⟨s.nextHook, url⟩]
      else hooksIn s.repos path := by
  simp only [addWebhook, hget]
  rw [hooksIn_insert, hooksIn_of_get? hget]

theorem hookStep_act (p : Provider) (s : InMemory) (a : Action) : HookStep s (act p s a) := by
  have hsame : ∀ path, (hooksIn s.repos path).Sublist (hooksIn s.repos path) :=
    fun path => List.Sublist.refl _
  cases a with
  | call c =>
    have hnext : s.nextHook = ((forge p).answer c s).state.nextHook :=
      (sameBeside_answer p c s).nextHook.symm
    exact .fewer (Nat.le_of_eq hnext) (outcome p c s).hooks_sublist
  | withRepository repo branches =>
    exact .fewer (Nat.le_refl _) (hooksIn_insert_sublist (List.nil_sublist _))
  | addWebhook repo url =>
    cases hget : s.get? repo with
    | none =>
      simp only [act, addWebhook, hget]
      exact .fewer (Nat.le_succ _) hsame
    | some r => exact .added rfl (hooksIn_addWebhook hget url)
  | scriptStatuses repo commit reports =>
    simp only [act, scriptStatuses]
    cases hget : s.get? repo with
    | none => exact .fewer (Nat.le_refl _) hsame
    | some r =>
      exact .fewer (Nat.le_refl _)
        (hooksIn_insert_sublist (sublist_hooksIn hget (List.Sublist.refl _)))
  | _ => exact .fewer (Nat.le_refl _) hsame

/-! ## Ids -/

/-- Webhooks are told apart by their ids, in one repository, where they go up, and in two, and no id
lies ahead. -/
structure HooksTold (s : InMemory) : Prop where
  below : ∀ path, ∀ h ∈ hooksIn s.repos path, h.id < s.nextHook
  inOne : ∀ path, (hooksIn s.repos path).Pairwise (·.id < ·.id)
  inTwo : ∀ path path', path ≠ path' → ∀ h ∈ hooksIn s.repos path, ∀ h' ∈ hooksIn s.repos path',
    h.id ≠ h'.id

theorem HookStep.told (hstep : HookStep s s') (h : HooksTold s) : HooksTold s' := by
  cases hstep with
  | fewer hnext hhooks =>
    exact {
      below := fun path hook hhook =>
        Nat.lt_of_lt_of_le (h.below path hook ((hhooks path).mem hhook)) hnext
      inOne := fun path => (h.inOne path).sublist (hhooks path)
      inTwo := fun path path' hne hook hhook hook' hhook' =>
        h.inTwo path path' hne hook ((hhooks path).mem hhook) hook' ((hhooks path').mem hhook') }
  | @added at' url hnext hhooks =>
    -- an old webhook stays below the id of the new one
    have hcases : ∀ path, ∀ hook ∈ hooksIn s'.repos path,
        hook ∈ hooksIn s.repos path ∨ at' = path ∧ hook.id = s.nextHook := by
      intro path hook hhook
      rw [hhooks] at hhook
      split at hhook
      · rename_i hpath
        rcases List.mem_append.mp hhook with hold | hnew
        · rw [hpath] at hold
          exact .inl hold
        · rw [List.mem_singleton.mp hnew]
          exact .inr ⟨hpath, rfl⟩
      · exact .inl hhook
    refine ⟨fun path hook hhook => ?_, fun path => ?_,
      fun path path' hne hook hhook hook' hhook' => ?_⟩
    · rw [hnext]
      rcases hcases path hook hhook with hold | ⟨-, hid⟩
      · exact Nat.lt_succ_of_lt (h.below path hook hold)
      · exact Nat.lt_succ_of_le (Nat.le_of_eq hid)
    · rw [hhooks]
      split
      · refine List.pairwise_append.mpr
          ⟨h.inOne at', List.pairwise_singleton _ _, fun hook hhook hook' hhook' => ?_⟩
        rw [List.mem_singleton.mp hhook']
        exact h.below at' hook hhook
      · exact h.inOne path
    · rcases hcases path hook hhook with hold | ⟨hpath, hid⟩
      · rcases hcases path' hook' hhook' with hold' | ⟨-, hid'⟩
        · exact h.inTwo path path' hne hook hold hook' hold'
        · rw [hid']
          exact Nat.ne_of_lt (h.below path hook hold)
      · rcases hcases path' hook' hhook' with hold' | ⟨hpath', -⟩
        · rw [hid]
          exact Nat.ne_of_gt (h.below path' hook' hold')
        · exact absurd (hpath.symm.trans hpath') hne

theorem told_run (p : Provider) (actions : List Action) (h : HooksTold s) :
    HooksTold (run p actions s) := by
  induction actions generalizing s with
  | nil => exact h
  | cons a rest ih => exact ih ((hookStep_act p s a).told h)

theorem told_initial : HooksTold {} := ⟨nofun, fun _ => List.Pairwise.nil, nofun⟩

/-! ## Cleanups in a row -/

/-- `l'` is `l` without the first `n` elements of the kind `q`, or without all of them if there are
fewer. -/
def WithoutFirst (q : α → Bool) (n : Nat) (l l' : List α) : Prop :=
  ∃ front rest, l = front ++ rest ∧ front.countP q = min n (l.countP q) ∧
    l' = front.filter (fun a => !q a) ++ rest

theorem withoutFirst_zero (q : α → Bool) (l : List α) : WithoutFirst q 0 l l :=
  ⟨[], l, rfl, by simp, rfl⟩

/-- The next match, if there is one, is the first in what was not looked at. -/
theorem WithoutFirst.eraseP {q : α → Bool} {n : Nat} {l l' : List α} (h : WithoutFirst q n l l') :
    WithoutFirst q (n + 1) l (l'.eraseP q) := by
  obtain ⟨front, rest, rfl, hcount, rfl⟩ := h
  have hclean : ∀ a ∈ front.filter (fun a => !q a), ¬ q a = true := by simp
  rw [List.eraseP_append_right _ hclean]
  rw [List.countP_append] at hcount
  by_cases hmore : ∃ a ∈ rest, q a = true
  · obtain ⟨a, ha, hqa⟩ := hmore
    obtain ⟨b, before, after, hbefore, hb, rfl, herased⟩ := List.exists_of_eraseP ha hqa
    have hnone : before.countP q = 0 := List.countP_eq_zero.mpr hbefore
    refine ⟨front ++ before ++ [b], after, by simp, ?_, ?_⟩
    · simp only [List.countP_append, List.countP_cons, List.countP_nil, hb, if_true,
        hnone] at hcount ⊢
      omega
    · have hkept : before.filter (fun a => !q a) = before := by
        rw [List.filter_eq_self]
        simpa using hbefore
      simp [herased, hkept, hb]
  · have hnone : ∀ a ∈ rest, ¬ q a = true := fun a ha hqa => hmore ⟨a, ha, hqa⟩
    refine ⟨front, rest, rfl, ?_, by rw [List.eraseP_of_forall_not hnone]⟩
    rw [List.countP_append]
    have hzero : rest.countP q = 0 := List.countP_eq_zero.mpr hnone
    omega

/-- So many cleanups, one after the other. -/
def cleanups (repo host : String) (k : Nat) : List Action :=
  List.replicate k (.call (.cleanupWebhooks repo host))

theorem answer_cleanup (p : Provider) (hfailing : s.failing = none) (hget : s.get? repo = some r)
    (hhost : host ≠ "") :
    (forge p).answer (.cleanupWebhooks repo host) s = ⟨.ok .nothing, 0,
      { s with
        log := s.log.push (.cleanupWebhooks (key repo) host)
        repos := s.repos.insert (key repo) (r.removeHook host) }⟩ := by
  have hthere : s.repos.get? (key repo) = some r := hget
  show (Task.ofAttempt (cleanupWebhooks repo host) >>= fun _ =>
    (pure Forge.Answer.nothing : Task InMemory ForgeError Forge.Answer)) s = _
  rw [Task.bind_pure, cleanupWebhooks, ofAttempt_attempt]
  simp only [perform, failureOf, hfailing, if_neg hhost, within, hthere]
  rfl

/-- By induction on their number, the last one last. -/
theorem run_cleanups (p : Provider) (hfailing : s.failing = none) (hget : s.get? repo = some r)
    (hhost : host ≠ "") (k : Nat) :
    (run p (cleanups repo host k) s).failing = none ∧
      ∃ hooks, WithoutFirst (fun h => Text.contains h.url host) k r.hooks hooks ∧
        (run p (cleanups repo host k) s).get? repo = some { r with hooks := hooks } := by
  induction k with
  | zero => exact ⟨hfailing, r.hooks, withoutFirst_zero _ _, hget⟩
  | succ k ih =>
    obtain ⟨hfailing', hooks, hhooks, hget'⟩ := ih
    have hlast : run p (cleanups repo host (k + 1)) s =
        ((forge p).answer (.cleanupWebhooks repo host) (run p (cleanups repo host k) s)).state := by
      rw [cleanups, List.replicate_succ', run_append]
      rfl
    rw [hlast, answer_cleanup p hfailing' hget' hhost]
    exact ⟨hfailing', _, hhooks.eraseP, (Table.get?_insert _ _ _ _).trans (if_pos rfl)⟩

/-- In every state that a run leads to, webhooks are told apart by their ids, and a new one comes
last. Unless something is set to fail, cleanups in a row all succeed, and each takes away the first
match that is left, as long as there is one. -/
theorem webhooks_frontToBack (p : Provider) (actions : List Action) :
    let s := run p actions {}
    HooksTold s ∧
    (∀ repo url r, s.get? repo = some r → (s.addWebhook repo url).get? repo =
      some { r with hooks := r.hooks ++ [⟨s.nextHook, url⟩] }) ∧
    (s.failing = none → ∀ repo r host, s.get? repo = some r → host ≠ "" → ∀ k,
      (∀ i < k, ((forge p).answer (.cleanupWebhooks repo host)
        (run p (cleanups repo host i) s)).result = .ok .nothing) ∧
      ∃ hooks, WithoutFirst (fun h => Text.contains h.url host) k r.hooks hooks ∧
        (run p (cleanups repo host k) s).get? repo = some { r with hooks := hooks }) := by
  intro s
  refine ⟨told_run p actions told_initial, fun repo url r hget => get?_addWebhook hget url,
    fun hfailing repo r host hget hhost k => ⟨fun i _ => ?_, ?_⟩⟩
  · obtain ⟨hfailing', hooks, -, hget'⟩ := run_cleanups p hfailing hget hhost i
    rw [answer_cleanup p hfailing' hget' hhost]
  · exact (run_cleanups p hfailing hget hhost k).2

/-- Webhooks for two hosts, and one for a repository that is not there. -/
def hooked : List Action :=
  [.withRepository "o/r" ["main"], .addWebhook "o/r" "https://a.example/0",
    .addWebhook "o/missing" "https://a.example/1", .addWebhook "o/r" "https://b.example/",
    .addWebhook " /o/r/ " "https://a.example/2", .addWebhook "o/r" "https://a.example/3"]

/-- The first two of three matches go, and the next webhook does not get an id again. -/
theorem webhooks_frontToBack_repeated :
    let s := run .gitHub hooked {}
    s.failing = none ∧ "a.example" ≠ "" ∧ HooksTold s ∧
      hooksIn s.repos "o/r" = [⟨1, "https://a.example/0"⟩, ⟨3, "https://b.example/"⟩,
        ⟨4, "https://a.example/2"⟩, ⟨5, "https://a.example/3"⟩] ∧
      ∃ r, s.get? "o/r" = some r ∧
        (s.addWebhook "o/r" "https://c.example/").get? "o/r" =
          some { r with hooks := r.hooks ++ [⟨6, "https://c.example/"⟩] } ∧
        ((forge .gitHub).answer (.cleanupWebhooks "o/r" "a.example")
          (run .gitHub (cleanups "o/r" "a.example" 1) s)).result = .ok .nothing ∧
        ∃ hooks, WithoutFirst (fun h => Text.contains h.url "a.example") 2 r.hooks hooks ∧
          (run .gitHub (cleanups "o/r" "a.example" 2) s).get? "o/r" = some { r with hooks := hooks } ∧
          hooks = [⟨3, "https://b.example/"⟩, ⟨5, "https://a.example/3"⟩] := by
  intro s
  obtain ⟨htold, hadded, hcleaned⟩ := webhooks_frontToBack .gitHub hooked
  have hhooks : hooksIn s.repos "o/r" = [⟨1, "https://a.example/0"⟩, ⟨3, "https://b.example/"⟩,
      ⟨4, "https://a.example/2"⟩, ⟨5, "https://a.example/3"⟩] := by rfl
  obtain ⟨r, hget⟩ : ∃ r, s.get? "o/r" = some r := ⟨_, rfl⟩
  obtain ⟨hanswered, hooks, hwithout, hleft⟩ :=
    hcleaned rfl "o/r" r "a.example" hget (by decide) 2
  refine ⟨rfl, by decide, htold, hhooks, r, hget, hadded "o/r" _ r hget, hanswered 1 (by decide),
    hooks, hwithout, hleft, ?_⟩
  have hrest : hooksIn (run .gitHub (cleanups "o/r" "a.example" 2) s).repos "o/r" = hooks :=
    hooksIn_of_get? hleft
  rw [← hrest]
  rfl

end InMemory
end ForgeChores
