import ForgeChores.Proofs.Text.Case
import ForgeChores.Proofs.Text.Split
import ForgeChores.Registry

/-!
# ForgeChores.Proofs.Registry.Selection

Which providers a registry holds, and which of them an allow-list selects.

A registry is made by offering entries one after the other (`offered`); one that is refused changes
nothing. A list is seen through the providers that its entries name (`isNamed`) and through the words
that are compared (`keys`), in whatever lower case.

* `Registered` says what a registry holds of the entries that were offered.
* `Selected` says what a list selects of a registry.
* `selection`: both hold of every registry and list, and lists with the same words select alike.
-/

namespace ForgeChores

/-! ## Names -/

/-- The words that a provider goes by. -/
def Provider.names : Provider → List String
  | .gitHub => ["gh", "github"]
  | .gitLab => ["gl", "gitlab"]
  | .forgejo => ["fj", "forgejo", "gt", "gitea"]

theorem Provider.parse?_eq_some_iff {s : String} {p : Provider} :
    parse? s = some p ↔ Text.lower (Text.trim s) ∈ p.names := by
  unfold parse?
  generalize Text.lower (Text.trim s) = name
  simp only [beq_iff_eq, Bool.or_eq_true]
  constructor
  · intro h
    split at h
    · rename_i hname
      cases h
      simpa [names] using hname
    · split at h
      · rename_i hname
        cases h
        simpa [names] using hname
      · split at h
        · rename_i hname
          cases h
          simpa [names, or_assoc] using hname
        · cases h
  · intro h
    cases p with
    | gitHub =>
      simp only [names, List.mem_cons, List.not_mem_nil, or_false] at h
      rcases h with rfl | rfl <;> rfl
    | gitLab =>
      simp only [names, List.mem_cons, List.not_mem_nil, or_false] at h
      rcases h with rfl | rfl <;> rfl
    | forgejo =>
      simp only [names, List.mem_cons, List.not_mem_nil, or_false] at h
      rcases h with rfl | rfl | rfl | rfl <;> rfl

theorem Provider.isName_of_mem {p : Provider} {name : String} (h : name ∈ p.names) :
    Text.IsName name.toList := by
  have hall : ∀ name ∈ p.names, Text.IsName name.toList := by cases p <;> decide
  exact hall name h

namespace Registry

variable {r : Registry} {c : ProviderConfig} {p : Provider} {list list' : Option String}

/-! ## Registration -/

/-- The provider has an entry. -/
def Holds (r : Registry) (p : Provider) : Prop := ∃ c ∈ r.configs, c.provider = p

instance : Decidable (r.Holds p) := inferInstanceAs (Decidable (∃ _ ∈ _, _))

theorem find?_isSome_iff : (r.find? p).isSome = true ↔ r.Holds p := by
  simp [find?, Holds]

theorem register_of_holds (h : r.Holds c.provider) :
    r.register c = .error (.duplicate c.provider) := by
  obtain ⟨d, hd⟩ := Option.isSome_iff_exists.mp (find?_isSome_iff.mpr h)
  rw [register, hd]

theorem register_of_not_holds (h : ¬ r.Holds c.provider) :
    r.register c = .ok ⟨r.configs ++ [c]⟩ := by
  have hnone : r.find? c.provider = none := by
    rw [← Option.not_isSome_iff_eq_none, find?_isSome_iff]
    exact h
  rw [register, hnone]

/-- Offers an entry. One that is refused changes nothing. -/
def offer (r : Registry) (c : ProviderConfig) : Registry :=
  match r.register c with
  | .ok r' => r'
  | .error _ => r

theorem offer_of_holds (h : r.Holds c.provider) : r.offer c = r := by
  rw [offer, register_of_holds h]

theorem offer_of_not_holds (h : ¬ r.Holds c.provider) : r.offer c = ⟨r.configs ++ [c]⟩ := by
  rw [offer, register_of_not_holds h]

/-- The registry to which these entries were offered, in this order. -/
def offered (cs : List ProviderConfig) : Registry := cs.foldl offer empty

theorem offered_concat (cs : List ProviderConfig) (c : ProviderConfig) :
    offered (cs ++ [c]) = (offered cs).offer c := by
  simp [offered]

/-- What a registry holds of the entries that were offered to it. -/
structure Registered (cs : List ProviderConfig) (r : Registry) : Prop where
  distinct : (r.configs.map (·.provider)).Nodup
  /-- The order is that in which the providers came first. -/
  order : r.configs.map (·.provider) = (cs.map (·.provider)).eraseDups
  /-- The entry of a provider is the first that was offered for it. -/
  first : ∀ p, r.find? p = cs.find? (·.provider = p)

theorem eraseDups_concat {α : Type} [DecidableEq α] (l : List α) (a : α) :
    (l ++ [a]).eraseDups = if a ∈ l then l.eraseDups else l.eraseDups ++ [a] := by
  rw [List.eraseDups_append]
  by_cases h : a ∈ l
  · simp [List.removeAll, h]
  · simp [List.removeAll, List.eraseDups_cons, h]

theorem Registered.offer {cs : List ProviderConfig} (h : Registered cs r) (c : ProviderConfig) :
    Registered (cs ++ [c]) (r.offer c) := by
  have hmem : c.provider ∈ cs.map (·.provider) ↔ r.Holds c.provider := by
    rw [← List.mem_eraseDups, ← h.order, List.mem_map]
    rfl
  by_cases hholds : r.Holds c.provider
  · rw [offer_of_holds hholds]
    refine ⟨h.distinct, ?_, fun p => ?_⟩
    · rw [h.order, List.map_append, List.map_singleton, eraseDups_concat,
        if_pos (hmem.mpr hholds)]
    · rw [h.first, List.find?_append]
      by_cases hp : c.provider = p
      · subst hp
        have hsome := find?_isSome_iff.mpr hholds
        rw [h.first] at hsome
        rw [Option.or_of_isSome hsome]
      · simp [hp]
  · rw [offer_of_not_holds hholds]
    refine ⟨?_, ?_, fun p => ?_⟩
    · rw [List.map_append, List.nodup_append]
      refine ⟨h.distinct, List.pairwise_singleton _ _, ?_⟩
      rintro q hq q' hq' rfl
      rw [List.map_singleton, List.mem_singleton] at hq'
      subst hq'
      exact hholds (List.mem_map.mp hq)
    · rw [List.map_append, List.map_append, List.map_singleton, eraseDups_concat,
        if_neg fun hc => hholds (hmem.mp hc), h.order]
    · rw [List.find?_append, ← h.first]
      exact List.find?_append

/-- By the entries that were offered, the last one last. -/
theorem registered_offered (cs : List ProviderConfig) : Registered cs (offered cs) := by
  induction cs using List.reverseRecOn with
  | nil => exact ⟨List.nodup_nil, rfl, fun _ => rfl⟩
  | append_singleton cs c ih =>
    rw [offered_concat]
    exact ih.offer c

/-! ## What a list names -/

/-- The entries of a list as they are written; none where there is no list. -/
def entriesOf (list : Option String) : List String := (list.map (Text.pieces ',')).getD []

/-- Whether an entry names the provider. -/
def isNamed (list : Option String) (p : Provider) : Bool :=
  (entriesOf list).any fun e => decide (Text.lower (Text.trim e) ∈ p.names)

/-- No entry says anything. -/
def IsIdle (list : Option String) : Prop := ∀ e ∈ entriesOf list, Text.trim e = ""

theorem allowEntries_eq : (list.map allowEntries).getD [] =
    ((entriesOf list).map Text.trim).filter (· ≠ "") := by
  cases list with
  | none => rfl
  | some l => rfl

theorem allowed?_eq_none_iff : allowed? list = none ↔ IsIdle list := by
  unfold allowed?
  rw [allowEntries_eq]
  split
  · rename_i hnil
    rw [List.filter_eq_nil_iff] at hnil
    simpa [IsIdle] using hnil
  · rename_i hne
    refine iff_of_false (by simp) fun hidle => hne ?_
    rw [List.filter_eq_nil_iff]
    simpa [IsIdle] using hidle

theorem mem_of_allowed? {wanted : List Provider} (h : allowed? list = some wanted) :
    p ∈ wanted ↔ isNamed list p = true := by
  unfold allowed? at h
  rw [allowEntries_eq] at h
  split at h
  · cases h
  · cases h
    have hblank : "" ∉ p.names := by cases p <;> decide
    simp only [List.mem_filterMap, List.mem_filter, List.mem_map, decide_eq_true_eq, isNamed,
      List.any_eq_true]
    constructor
    · rintro ⟨-, ⟨⟨e, he, rfl⟩, -⟩, hparse⟩
      rw [Provider.parse?_eq_some_iff, Text.trim_trim] at hparse
      exact ⟨e, he, hparse⟩
    · rintro ⟨e, he, hname⟩
      refine ⟨Text.trim e, ⟨⟨e, he, rfl⟩, ?_⟩, ?_⟩
      · intro hempty
        rw [hempty] at hname
        exact hblank hname
      · rw [Provider.parse?_eq_some_iff, Text.trim_trim]
        exact hname

theorem isNamed_of_idle (h : IsIdle list) (p : Provider) : isNamed list p = false := by
  have hblank : Text.lower "" ∉ p.names := by cases p <;> decide
  simp only [isNamed, List.any_eq_false, decide_eq_true_eq]
  intro e he
  rw [h e he]
  exact hblank

/-! ## What a list selects -/

theorem enabled_eq (r : Registry) (list : Option String) :
    r.enabled list =
      if r.configs.any fun c => isNamed list c.provider then
        r.configs.filter fun c => isNamed list c.provider
      else r.configs := by
  have hempty : (r.configs.filter fun c => isNamed list c.provider) = [] ↔
      ¬ (r.configs.any fun c => isNamed list c.provider) = true := by simp
  unfold enabled
  cases hallowed : allowed? list with
  | none =>
    have hidle := isNamed_of_idle (allowed?_eq_none_iff.mp hallowed)
    simp [hidle]
  | some wanted =>
    have hfilter : (r.configs.filter fun c => c.provider ∈ wanted) =
        r.configs.filter fun c => isNamed list c.provider := by
      refine List.filter_congr fun c _ => ?_
      rw [Bool.eq_iff_iff, decide_eq_true_iff]
      exact mem_of_allowed? hallowed
    simp only [hfilter]
    split
    · rename_i hnil
      rw [if_neg (hempty.mp hnil)]
    · rename_i hne
      rw [if_pos]
      by_contra hany
      exact hne (hempty.mpr hany)

theorem isEnabled_iff : r.isEnabled p list = true ↔
    r.Holds p ∧ (IsIdle list ∨ isNamed list p = true) := by
  unfold isEnabled
  rw [Bool.and_eq_true, find?_isSome_iff]
  refine and_congr_right fun _ => ?_
  cases hallowed : allowed? list with
  | none => simp [allowed?_eq_none_iff.mp hallowed]
  | some wanted =>
    have hidle : ¬ IsIdle list := by
      rw [← allowed?_eq_none_iff, hallowed]
      exact Option.some_ne_none wanted
    simp [hidle, mem_of_allowed? hallowed]

/-- What a list selects of a registry. -/
structure Selected (r : Registry) (list : Option String) : Prop where
  sublist : (r.enabled list).Sublist r.configs
  empty : r.enabled list = [] → r.configs = []
  /-- If the list names a provider that is there, those that it names are selected. -/
  named : (∃ c ∈ r.configs, isNamed list c.provider = true) →
    r.enabled list = r.configs.filter fun c => isNamed list c.provider
  /-- A list that is absent or idle, or that names no provider that is there, selects all. -/
  unnamed : list = none ∨ IsIdle list ∨ (∀ c ∈ r.configs, isNamed list c.provider = false) →
    r.enabled list = r.configs
  /-- Asked about providers one by one, the answers are the same, if there is a yes among them. -/
  agrees : (∃ p, r.isEnabled p list = true) →
    ∀ p, (∃ c ∈ r.enabled list, c.provider = p) ↔ r.isEnabled p list = true

theorem enabled_of_named (h : ∃ c ∈ r.configs, isNamed list c.provider = true) :
    r.enabled list = r.configs.filter fun c => isNamed list c.provider := by
  rw [enabled_eq, if_pos (List.any_eq_true.mpr h)]

theorem enabled_of_unnamed (h : ∀ c ∈ r.configs, isNamed list c.provider = false) :
    r.enabled list = r.configs := by
  rw [enabled_eq, if_neg]
  rw [List.any_eq_true]
  rintro ⟨c, hc, hnamed⟩
  rw [h c hc] at hnamed
  cases hnamed

theorem selected (r : Registry) (list : Option String) : Selected r list where
  sublist := by
    rw [enabled_eq]
    split
    · exact List.filter_sublist
    · exact List.Sublist.refl _
  empty := by
    intro h
    by_cases hnamed : ∃ c ∈ r.configs, isNamed list c.provider = true
    · obtain ⟨c, hc, hname⟩ := hnamed
      rw [enabled_of_named ⟨c, hc, hname⟩] at h
      have hmem : c ∈ r.configs.filter fun c => isNamed list c.provider :=
        List.mem_filter.mpr ⟨hc, hname⟩
      rw [h] at hmem
      cases hmem
    · rw [enabled_of_unnamed fun c hc => by simpa using fun hname => hnamed ⟨c, hc, hname⟩] at h
      exact h
  named := enabled_of_named
  unnamed := by
    rintro (rfl | hidle | hno)
    · exact enabled_of_unnamed fun c _ => rfl
    · exact enabled_of_unnamed fun c _ => isNamed_of_idle hidle c.provider
    · exact enabled_of_unnamed hno
  agrees := by
    rintro ⟨q, hq⟩ p
    obtain ⟨⟨d, hd, rfl⟩, hidle | hname⟩ := isEnabled_iff.mp hq
    · rw [enabled_of_unnamed fun c _ => isNamed_of_idle hidle c.provider, isEnabled_iff]
      exact (and_iff_left (Or.inl hidle)).symm
    · have hidle : ¬ IsIdle list := by
        intro hidle
        rw [isNamed_of_idle hidle] at hname
        cases hname
      rw [enabled_of_named ⟨d, hd, hname⟩, isEnabled_iff, or_iff_right hidle]
      constructor
      · rintro ⟨c, hc, rfl⟩
        obtain ⟨hc, hname⟩ := List.mem_filter.mp hc
        exact ⟨⟨c, hc, rfl⟩, hname⟩
      · rintro ⟨⟨c, hc, rfl⟩, hname⟩
        exact ⟨c, List.mem_filter.mpr ⟨hc, hname⟩, rfl⟩

/-! ## The words of a list -/

/-- The words of a list as they are compared: trimmed, in lower case, and not blank. -/
def keys (lc : Text.LowerCasing) (list : Option String) : List String :=
  ((entriesOf list).map fun e => lc.fold (Text.trim e)).filter (· ≠ "")

theorem mem_keys_iff {lc : Text.LowerCasing} {k : String} :
    k ∈ keys lc list ↔ (∃ e ∈ entriesOf list, lc.fold (Text.trim e) = k) ∧ k ≠ "" := by
  simp [keys]

theorem isNamed_iff_keys (lc : Text.LowerCasing) :
    isNamed list p = true ↔ ∃ k ∈ keys lc list, k ∈ p.names := by
  have hblank : "" ∉ p.names := by cases p <;> decide
  simp only [isNamed, List.any_eq_true, decide_eq_true_eq, mem_keys_iff]
  constructor
  · rintro ⟨e, he, hname⟩
    have hfold : lc.fold (Text.trim e) = Text.lower (Text.trim e) :=
      (lc.fold_eq_iff (Provider.isName_of_mem hname)).mpr rfl
    exact ⟨_, ⟨⟨e, he, hfold⟩, fun hempty => hblank (hempty ▸ hname)⟩, hname⟩
  · rintro ⟨_, ⟨⟨e, he, rfl⟩, -⟩, hname⟩
    have hlower := (lc.fold_eq_iff (Provider.isName_of_mem hname)).mp rfl
    rw [← hlower] at hname
    exact ⟨e, he, hname⟩

theorem isIdle_iff_keys (lc : Text.LowerCasing) : IsIdle list ↔ ∀ k, k ∉ keys lc list := by
  simp only [IsIdle, mem_keys_iff]
  constructor
  · rintro hidle k ⟨⟨e, he, rfl⟩, hne⟩
    exact hne (lc.fold_eq_empty_iff.mpr (hidle e he))
  · intro hno e he
    by_contra hne
    exact hno _ ⟨⟨e, he, rfl⟩, fun hempty => hne (lc.fold_eq_empty_iff.mp hempty)⟩

/-- Two lists select the same. -/
def SelectsAlike (r : Registry) (list list' : Option String) : Prop :=
  r.enabled list = r.enabled list' ∧ ∀ p, r.isEnabled p list = r.isEnabled p list'

theorem selects_alike (lc : Text.LowerCasing) (h : ∀ k, k ∈ keys lc list ↔ k ∈ keys lc list')
    (r : Registry) : r.SelectsAlike list list' := by
  have hnamed : ∀ p, isNamed list p = isNamed list' p := by
    intro p
    rw [Bool.eq_iff_iff, isNamed_iff_keys lc, isNamed_iff_keys lc]
    simp only [h]
  have hidle : IsIdle list ↔ IsIdle list' := by
    rw [isIdle_iff_keys lc, isIdle_iff_keys lc]
    simp only [h]
  refine ⟨?_, fun p => ?_⟩
  · rw [enabled_eq, enabled_eq]
    simp only [hnamed]
  · rw [Bool.eq_iff_iff, isEnabled_iff, isEnabled_iff, hidle, hnamed]

/-! ## Lists that say the same -/

/-- `e'` is `e` in another letter case, with white space around it. -/
def Respells (e e' : String) : Prop :=
  ∃ before core after, Text.trim before = "" ∧ Text.trim after = "" ∧
    Text.lower core = Text.lower e ∧ e' = before ++ core ++ after

/-- `es'` has the entries of `es` and blank ones, in any order, as often and in whatever spelling. -/
structure Rewrites (es es' : List String) : Prop where
  adds_none : ∀ e' ∈ es', Text.trim e' = "" ∨ ∃ e ∈ es, Respells e e'
  loses_none : ∀ e ∈ es, Text.trim e = "" ∨ ∃ e' ∈ es', Respells e e'

theorem Respells.lower_trim {e e' : String} (h : Respells e e') :
    Text.lower (Text.trim e') = Text.lower (Text.trim e) := by
  obtain ⟨before, core, after, hbefore, hafter, hcore, rfl⟩ := h
  rw [Text.trim_padded hbefore hafter, ← Text.trim_lower, hcore, Text.trim_lower]

theorem mem_keys_joined {es : List String} (hes : ∀ e ∈ es, ',' ∉ e.toList) {k : String} :
    k ∈ keys .ascii (some (Text.joined ',' es)) ↔
      (∃ e ∈ es, Text.lower (Text.trim e) = k) ∧ k ≠ "" := by
  rw [mem_keys_iff]
  cases es with
  | nil =>
    -- the empty text is one blank entry
    have hentries : entriesOf (some (Text.joined ',' [])) = [""] := rfl
    rw [hentries]
    simp [Text.LowerCasing.ascii, eq_comm, show Text.trim "" = "" from rfl, Text.lower]
  | cons e rest =>
    have hentries : entriesOf (some (Text.joined ',' (e :: rest))) = e :: rest :=
      Text.pieces_joined (List.cons_ne_nil _ _) hes
    rw [hentries]
    rfl

theorem Rewrites.mem_keys_iff {es es' : List String} (h : Rewrites es es')
    (hes : ∀ e ∈ es, ',' ∉ e.toList) (hes' : ∀ e ∈ es', ',' ∉ e.toList) (k : String) :
    k ∈ keys .ascii (some (Text.joined ',' es)) ↔
      k ∈ keys .ascii (some (Text.joined ',' es')) := by
  rw [mem_keys_joined hes, mem_keys_joined hes']
  refine and_congr_left fun hk => ?_
  have hsaid : ∀ e, Text.lower (Text.trim e) = k → Text.trim e ≠ "" := by
    rintro e rfl hblank
    rw [hblank] at hk
    exact hk rfl
  constructor
  · rintro ⟨e, he, hword⟩
    rcases h.loses_none e he with hblank | ⟨e', he', hrespells⟩
    · exact absurd hblank (hsaid e hword)
    · exact ⟨e', he', hrespells.lower_trim.trans hword⟩
  · rintro ⟨e', he', hword⟩
    rcases h.adds_none e' he' with hblank | ⟨e, he, hrespells⟩
    · exact absurd hblank (hsaid e' hword)
    · exact ⟨e, he, hrespells.lower_trim.symm.trans hword⟩

/-- An entry is taken exactly if its provider has none. Of the registry that comes about, a list
selects those that it names, or else all. Lists with the same words, in whatever lower case these
are compared, select alike; so order, repetition, letter case and white space do not matter. -/
theorem selection (cs : List ProviderConfig) :
    let r := offered cs
    Registered cs r ∧
    (∀ c, if r.Holds c.provider then
        r.register c = .error (.duplicate c.provider) ∧ r.offer c = r
      else r.register c = .ok ⟨r.configs ++ [c]⟩) ∧
    (∀ list, Selected r list) ∧
    (∀ (lc : Text.LowerCasing) (list list' : Option String),
      (∀ k, k ∈ keys lc list ↔ k ∈ keys lc list') → r.SelectsAlike list list') ∧
    ∀ es es' : List String, (∀ e ∈ es ++ es', ',' ∉ e.toList) → Rewrites es es' →
      r.SelectsAlike (some (Text.joined ',' es)) (some (Text.joined ',' es')) := by
  refine ⟨registered_offered cs, fun c => ?_, fun list => selected _ list,
    fun lc list list' h => selects_alike lc h _, fun es es' hcomma hrewrites => ?_⟩
  · split
    · exact ⟨register_of_holds ‹_›, offer_of_holds ‹_›⟩
    · exact register_of_not_holds ‹_›
  · refine selects_alike .ascii (hrewrites.mem_keys_iff (fun e he => ?_) fun e he => ?_) _
    · exact hcomma e (List.mem_append_left _ he)
    · exact hcomma e (List.mem_append_right _ he)

/-- A registry as the settings make it, and a list with a repeated, padded and misspelled entry. -/
example (s : Settings) :
    ((ofSettings s).enabled (some " GL ,gh,,gl,hub")).map (·.provider) = [.gitHub, .gitLab] := by
  rw [enabled_eq]
  rfl

end Registry
end ForgeChores
