import ForgeChores.Proofs.Forge.Connected
import ForgeChores.Proofs.Repository
import ForgeChores.Registry

/-!
# ForgeChores.Proofs.Registry.Naming

The names that a setup uses: of the source, of the fork, and of the place where people find it.

A fork is named after its source, by a full path or by a bare name (`targetRepoName_cases`), and
either is read as the same repository (`parse_targetRepoName`) if no part of it is dropped, which is
up to the name of the source (`Forkable.firstOfName`) and to what is put behind it. A forge looks at
nothing else of a name than what it is read as (`forkRepository_respelled`).

* `setupNames_agree`: so the forge is asked for the fork that the URL shows, and of the source that
  is configured.
-/

namespace ForgeChores

open RepoPath (core isMargin)

/-- A source whose text has an owner and a name that keep their ends: it is not empty, and there is
no white space around it or right behind its last slash. -/
structure Forkable (text : List Char) : Prop where
  ne_nil : text ≠ []
  bare : Text.Bare Text.isBlank text
  behindSlash : ∀ before c after, text = before ++ '/' :: c :: after → '/' ∉ c :: after →
    Text.isBlank c = false

theorem Forkable.firstOfName {repo : String} (h : Forkable (core repo)) (d : String) :
    ∃ c rest, (RepoPath.parse repo d).name.toList = c :: rest ∧ isMargin c = false := by
  have hslashless := RepoPath.slash_not_mem_name repo d
  by_cases hslash : '/' ∈ core repo
  · obtain ⟨owner, name, hcore, hname⟩ := Text.exists_last hslash
    obtain ⟨-, hne⟩ := RepoPath.ne_nil_of_core hcore
    obtain ⟨c, rest, rfl⟩ := List.exists_cons_of_ne_nil hne
    have hblank := h.behindSlash owner c rest hcore hname
    have hc : (c == '/') = false := beq_false_of_ne fun hc => hname (hc ▸ List.mem_cons_self)
    refine ⟨c, rest, ?_, Bool.or_eq_false_iff.mpr ⟨hblank, hc⟩⟩
    rw [RepoPath.parse_of_slash hcore hname, String.toList_ofList]
  · rw [RepoPath.parse_of_bare hslash, String.toList_ofList]
    obtain ⟨c, rest, hcore⟩ := List.exists_cons_of_ne_nil h.ne_nil
    have hfirst := h.bare.1
    rw [hcore] at hfirst hslash
    have hc : (c == '/') = false := beq_false_of_ne fun hc => hslash (hc ▸ List.mem_cons_self)
    exact ⟨c, rest, hcore, Bool.or_eq_false_iff.mpr ⟨hfirst c rfl, hc⟩⟩

namespace ProviderConfig

variable {c : ProviderConfig} {suffix : String}

/-- The repository that a fork is to be. -/
def target (c : ProviderConfig) (suffix : String) : RepoPath :=
  ⟨c.org, c.source.name ++ "-" ++ suffix⟩

theorem targetRepoName_cases (c : ProviderConfig) (suffix : String) :
    c.targetRepoName suffix = (c.target suffix).fullPath ∨
      c.targetRepoName suffix = (c.target suffix).name := by
  unfold targetRepoName
  cases c.provider with
  | gitLab => exact .inl rfl
  | gitHub | forgejo => exact .inr rfl

/-- The name of a fork begins like that of its source, and ends with the suffix or with the dash. -/
theorem bare_target (hsource : Forkable (core c.sourceRepo))
    (hsuffix : ∀ ch ∈ suffix.toList, isMargin ch = false) :
    (c.target suffix).name ≠ "" ∧ Text.Bare isMargin (c.target suffix).name.toList := by
  obtain ⟨first, rest, hname, hfirst⟩ := hsource.firstOfName c.org
  have hlist : (c.target suffix).name.toList = first :: (rest ++ '-' :: suffix.toList) := by
    show (c.source.name ++ "-" ++ suffix).toList = _
    rw [source, String.toList_append, String.toList_append, hname]
    simp
  refine ⟨?_, ?_, ?_⟩
  · intro hempty
    rw [hempty] at hlist
    cases hlist
  · rw [hlist]
    rintro ch ⟨⟩
    exact hfirst
  · rw [hlist, List.getLast?_cons, List.getLast?_append_of_ne_nil _ (List.cons_ne_nil _ _),
      List.getLast?_cons]
    rintro ch ⟨⟩
    cases hlast : suffix.toList.getLast? with
    | none => rfl
    | some last => exact hsuffix last (List.mem_of_getLast? hlast)

theorem slash_not_mem_target (hsuffix : ∀ ch ∈ suffix.toList, isMargin ch = false) :
    '/' ∉ (c.target suffix).name.toList := by
  have hname : '/' ∉ c.source.name.toList := RepoPath.slash_not_mem_name _ _
  have hend : '/' ∉ suffix.toList := by
    intro h
    cases hsuffix '/' h
  show '/' ∉ (c.source.name ++ "-" ++ suffix).toList
  simp [hname, hend]

theorem parse_target (horg : c.org ≠ "") (hbare : Text.Bare isMargin c.org.toList)
    (hsource : Forkable (core c.sourceRepo))
    (hsuffix : ∀ ch ∈ suffix.toList, isMargin ch = false) (d : String) :
    RepoPath.parse (c.target suffix).fullPath d = c.target suffix := by
  obtain ⟨hne, hname⟩ := bare_target hsource hsuffix
  exact RepoPath.parse_fullPath (RepoPath.bare_fullPath horg hne hbare.1 hname.2)
    (slash_not_mem_target hsuffix) d

theorem parse_targetRepoName (horg : c.org ≠ "") (hbare : Text.Bare isMargin c.org.toList)
    (hsource : Forkable (core c.sourceRepo))
    (hsuffix : ∀ ch ∈ suffix.toList, isMargin ch = false) :
    RepoPath.parse (c.targetRepoName suffix) c.org = c.target suffix := by
  rcases targetRepoName_cases c suffix with hpath | hpath
  · rw [hpath]
    exact parse_target horg hbare hsource hsuffix c.org
  · have hcore := RepoPath.core_of_bare (bare_target hsource hsuffix).2
    have hslash : '/' ∉ core (c.target suffix).name := by
      rw [hcore]
      exact slash_not_mem_target hsuffix
    rw [hpath, RepoPath.parse_of_bare hslash, hcore, String.ofList_toList]
    rfl

theorem targetRepoUrl_eq (hsuffix : ∀ ch ∈ suffix.toList, isMargin ch = false) :
    c.targetRepoUrl (c.targetRepoName suffix) =
      Text.trimEnd '/' c.webBase ++ "/" ++ (c.target suffix).fullPath := by
  unfold targetRepoUrl
  rcases targetRepoName_cases c suffix with hpath | hpath
  · have hslash : '/' ∈ (c.target suffix).fullPath.toList := by
      rw [RepoPath.toList_fullPath]
      exact List.mem_append_right _ List.mem_cons_self
    rw [hpath, if_pos hslash]
  · rw [hpath, if_neg (slash_not_mem_target hsuffix)]
    simp only [RepoPath.fullPath, target, String.append_assoc]

/-! ## What a forge makes of the names -/

theorem forkRepository_respelled {token : String} {remote : RemoteForge}
    (hconnect : c.connect token = .ok remote) {source source' name name' : String}
    (hsource : RepoPath.parse source c.org = RepoPath.parse source' c.org)
    (hname : RepoPath.parse name c.org = RepoPath.parse name' c.org) :
    remote.forge.forkRepository source name = remote.forge.forkRepository source' name' := by
  unfold connect Provider.connect at hconnect
  cases hprovider : c.provider
  all_goals
    rw [hprovider] at hconnect
    obtain ⟨g, hg, hremote⟩ := except_bind_eq_ok.mp hconnect
    obtain ⟨api, -, hmade⟩ := except_bind_eq_ok.mp hg
    cases hmade
    cases hremote
  case gitHub =>
    show GitHub.forkRepository _ source name = GitHub.forkRepository _ source' name'
    simp only [GitHub.forkRepository, GitHub.repo, hsource, hname]
  case gitLab =>
    show GitLab.forkRepository _ source name = GitLab.forkRepository _ source' name'
    simp only [GitLab.forkRepository, GitLab.project, hsource, hname]
  case forgejo =>
    show Forgejo.forkRepository _ source name = Forgejo.forkRepository _ source' name'
    simp only [Forgejo.forkRepository, Forgejo.repo, hsource, hname]

/-- On every provider the name of a fork is read as the name of the source with the suffix, under
the organization, and the URL leads to that full path. The path of the source is read as the source.
So a forge that is asked by these names forks the source that is configured into that full path. The
suffix may be any text without white space and slashes, such as the letters and digits that are
drawn. -/
theorem setupNames_agree (c : ProviderConfig) (suffix : String) (horg : c.org ≠ "")
    (hbare : Text.Bare isMargin c.org.toList) (hsource : Forkable (core c.sourceRepo))
    (hsuffix : ∀ ch ∈ suffix.toList, isMargin ch = false) :
    let name := c.targetRepoName suffix
    RepoPath.parse name c.org = ⟨c.org, c.source.name ++ "-" ++ suffix⟩ ∧
    c.targetRepoUrl name =
      Text.trimEnd '/' c.webBase ++ "/" ++ (RepoPath.parse name c.org).fullPath ∧
    RepoPath.parse c.sourceRepoPath c.org = RepoPath.parse c.sourceRepo c.org ∧
    ∀ token remote, c.connect token = .ok remote →
      remote.forge.forkRepository c.sourceRepoPath name =
        remote.forge.forkRepository c.sourceRepo (RepoPath.parse name c.org).fullPath := by
  intro name
  have hname : RepoPath.parse name c.org = c.target suffix :=
    parse_targetRepoName horg hbare hsource hsuffix
  have hpath : RepoPath.parse c.sourceRepoPath c.org = RepoPath.parse c.sourceRepo c.org :=
    RepoPath.parse_fullPath
      (RepoPath.bare_fullPath_parse hsource.bare fun _ => ⟨hsource.ne_nil, horg, hbare⟩)
      (RepoPath.slash_not_mem_name _ _) c.org
  refine ⟨hname, ?_, hpath, fun token remote hconnect => ?_⟩
  · rw [hname]
    exact targetRepoUrl_eq hsuffix
  · refine forkRepository_respelled hconnect hpath ?_
    rw [hname]
    exact (parse_target horg hbare hsource hsuffix c.org).symm

/-- A nested group, and a source in another one; either has a blank in a name. -/
def nestedGroup : ProviderConfig :=
  { provider := .gitLab, apiBase := GitLab.defaultApiBase, webBase := "https://gitlab.com//",
    org := "team/sub group", sourceRepo := " /upstream/samples/hello world/ ", tokenEnv := "TOKEN",
    secretName := none, timeouts := {} }

theorem forkable_nestedGroup : Forkable (core nestedGroup.sourceRepo) where
  ne_nil := by decide
  bare := by decide
  behindSlash := by
    intro before c after htext hlast
    have hsplit : Text.splitLast '/' (core nestedGroup.sourceRepo) =
        some ("upstream/samples".toList, "hello world".toList) := by decide
    rw [htext, Text.splitLast_append_cons hlast] at hsplit
    cases hsplit
    rfl

theorem setupNames_agree_nested :
    nestedGroup.targetRepoName "a1b2c3" = "team/sub group/hello world-a1b2c3" ∧
      RepoPath.parse "team/sub group/hello world-a1b2c3" "team/sub group" =
        ⟨"team/sub group", "hello world-a1b2c3"⟩ ∧
      nestedGroup.targetRepoUrl "team/sub group/hello world-a1b2c3" =
        "https://gitlab.com/team/sub group/hello world-a1b2c3" ∧
      RepoPath.parse "upstream/samples/hello world" "team/sub group" =
        ⟨"upstream/samples", "hello world"⟩ ∧
      ∃ remote, nestedGroup.connect "t" = .ok remote ∧
        remote.forge.forkRepository "upstream/samples/hello world"
            "team/sub group/hello world-a1b2c3" =
          remote.forge.forkRepository " /upstream/samples/hello world/ "
            "team/sub group/hello world-a1b2c3" := by
  have hsuffix : ∀ ch ∈ "a1b2c3".toList, isMargin ch = false := by
    have hnone : "a1b2c3".toList.any isMargin = false := by decide
    simpa using hnone
  obtain ⟨hname, hurl, hsource, hasked⟩ := setupNames_agree nestedGroup "a1b2c3" (by decide)
    (by decide) forkable_nestedGroup hsuffix
  have hconnect : nestedGroup.connect "t" = .ok
      ⟨publicGitLab.api, GitLab.forge { publicGitLab with group := "team/sub group" }⟩ := by rfl
  exact ⟨by decide, hname, hurl, hsource, _, hconnect, hasked "t" _ hconnect⟩

end ProviderConfig
end ForgeChores
