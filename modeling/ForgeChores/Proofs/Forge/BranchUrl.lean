import ForgeChores.Proofs.Forge.Connected
import ForgeChores.Proofs.Http.Asking
import ForgeChores.Proofs.Repository
import ForgeChores.Proofs.Url.Appending

/-!
# ForgeChores.Proofs.Forge.BranchUrl

The URLs of branches.

GitHub and Forgejo give owner, name and each part of the branch a segment, GitLab has one for the
whole project and one for the whole branch. `BranchNaming` says of a forge that the names stand in
its URLs one by one, so they can be read off again (`BranchNaming.eq_of_text`), and a request for one
branch is never one for another (`deleteBranch_named`).
-/

namespace ForgeChores

/-! ## Names that a path can hold -/

/-- A branch of a repository whose names a path can hold; a branch has a name for each of its parts
between slashes. -/
structure Nameable (r : RepoPath) (branch : String) : Prop where
  owner : IsSegment r.owner
  name : IsSegment r.name
  parts : ∀ part ∈ Text.pieces '/' branch, IsSegment part

theorem isSegment_branch {branch : String} (h : ∀ part ∈ Text.pieces '/' branch, IsSegment part) :
    IsSegment branch := by
  refine ⟨?_, ?_, ?_, fun c hc => ?_⟩
  · rintro rfl
    exact (h "" (by decide)).ne_empty rfl
  · rintro rfl
    exact (h "." (by decide)).ne_dot rfl
  · rintro rfl
    exact (h ".." (by decide)).ne_dots rfl
  · have hpiece : c = '/' ∨ ∃ part ∈ Text.pieces '/' branch, c ∈ part.toList := Text.mem_pieces hc
    rcases hpiece with rfl | ⟨part, hpart, hin⟩
    · decide
    · exact (h part hpart).kept c hin

theorem isSegment_fullPath {r : RepoPath} (howner : IsSegment r.owner) (hname : IsSegment r.name) :
    IsSegment r.fullPath := by
  have hslash : ∀ s : String, '/' ∉ s.toList → r.fullPath ≠ s := by
    rintro s hs rfl
    rw [RepoPath.toList_fullPath] at hs
    exact hs (List.mem_append_right _ List.mem_cons_self)
  refine ⟨hslash "" (by decide), hslash "." (by decide), hslash ".." (by decide), fun c hc => ?_⟩
  rw [RepoPath.toList_fullPath, List.mem_append, List.mem_cons] at hc
  rcases hc with hin | rfl | hin
  · exact howner.kept c hin
  · decide
  · exact hname.kept c hin

/-! ## The names in a URL -/

/-- A branch in a repository that is addressed by owner and name. -/
def repoNames (kind : List String) (r : RepoPath) (branch : String) : List String :=
  ["repos", r.owner, r.name] ++ (kind ++ Text.pieces '/' branch)

def GitHub.branchNames : RepoPath → String → List String := repoNames ["git", "refs", "heads"]

def GitLab.branchNames (r : RepoPath) (branch : String) : List String :=
  ["projects", r.fullPath, "repository", "branches", branch]

def Forgejo.branchNames : RepoPath → String → List String := repoNames ["branches"]

variable {r r' : RepoPath} {branch branch' : String}

theorem filter_pieces (h : ∀ part ∈ Text.pieces '/' branch, IsSegment part) :
    (Text.pieces '/' branch).filter (· ≠ "") = Text.pieces '/' branch := by
  rw [List.filter_eq_self]
  intro part hpart
  exact decide_eq_true (h part hpart).ne_empty

/-- How the requests of a forge name branches. -/
structure BranchNaming (base : Url) (url : RepoPath → String → Url)
    (names : RepoPath → String → List String) : Prop where
  url_eq : ∀ {r branch}, Nameable r branch → url r branch = base.append (names r branch)
  isHttp : ∀ r branch, (url r branch).isHttp = base.isHttp
  ne_nil : ∀ r branch, names r branch ≠ []
  isSegment : ∀ {r branch}, Nameable r branch → ∀ name ∈ names r branch, IsSegment name
  apart : ∀ {r r' branch branch'}, names r branch = names r' branch' →
    r.fullPath = r'.fullPath ∧ branch = branch'

theorem BranchNaming.of_repoNames {base : Url} {url : RepoPath → String → Url} {kind : List String}
    (hkind : ∀ name ∈ kind, IsSegment name)
    (hurl : ∀ {r branch}, Nameable r branch → url r branch = base.append (repoNames kind r branch))
    (hhttp : ∀ r branch, (url r branch).isHttp = base.isHttp) :
    BranchNaming base url (repoNames kind) where
  url_eq := hurl
  isHttp := hhttp
  ne_nil _ _ := List.cons_ne_nil _ _
  isSegment h := by
    simp only [repoNames, List.forall_mem_append, List.forall_mem_cons]
    exact ⟨⟨by decide, h.owner, h.name, List.forall_mem_nil _⟩, hkind, h.parts⟩
  apart h := by
    simp only [repoNames, List.cons_append, List.nil_append, List.cons.injEq, true_and,
      List.append_cancel_left_eq] at h
    obtain ⟨howner, hname, hpieces⟩ := h
    rw [RepoPath.fullPath, howner, hname]
    exact ⟨rfl, Text.pieces_injective '/' hpieces⟩

theorem GitHub.branchNaming (g : GitHub) :
    BranchNaming g.api.base (g.branchUrl · "git/refs") branchNames := by
  refine .of_repoNames (by decide) (fun {r branch} h => ?_) fun _ _ => Client.isHttp_repoUrl _ _ _
  have hrefs : (Text.pieces '/' "git/refs").filter (· ≠ "") = ["git", "refs"] := by rfl
  have hheads : Text.pieces '/' ("heads/" ++ branch) = "heads" :: Text.pieces '/' branch := by
    have happend : "heads/" ++ branch = String.ofList ("heads".toList ++ '/' :: branch.toList) := by
      rw [← String.toList_inj]
      simp
    rw [happend, Text.pieces_append_cons (by decide)]
    rfl
  unfold branchUrl Client.repoUrl Client.url repoNames
  rw [List.flatMap_cons, List.flatMap_singleton, hrefs, hheads, List.filter_cons_of_pos (by decide),
    filter_pieces h.parts]
  rfl

theorem GitLab.branchNaming (g : GitLab) :
    BranchNaming g.api.base (fun r => g.branchUrl r.fullPath) branchNames where
  url_eq _ := rfl
  isHttp _ _ := Client.isHttp_projectUrl _ _ _
  ne_nil _ _ := List.cons_ne_nil _ _
  isSegment h := by
    simp only [branchNames, List.forall_mem_cons]
    exact ⟨by decide, isSegment_fullPath h.owner h.name, by decide, by decide,
      isSegment_branch h.parts, List.forall_mem_nil _⟩
  apart h := by
    simp only [branchNames, List.cons.injEq, true_and, and_true] at h
    exact h

theorem Forgejo.branchNaming (g : Forgejo) : BranchNaming g.api.base g.branchUrl branchNames := by
  refine .of_repoNames (by decide) (fun {r branch} h => ?_) fun _ _ => Client.isHttp_repoUrl _ _ _
  have hbranches : (Text.pieces '/' "branches").filter (· ≠ "") = ["branches"] := by rfl
  unfold branchUrl Client.repoUrl Client.url repoNames
  rw [List.flatMap_cons, List.flatMap_singleton, hbranches, filter_pieces h.parts]

namespace BranchNaming

variable {base : Url} {url : RepoPath → String → Url} {names : RepoPath → String → List String}

theorem spells (n : BranchNaming base url names) (hbase : base.hasSegments = true)
    (h : Nameable r branch) : ∃ segments, base.Spells (names r branch) (url r branch) segments := by
  rw [n.url_eq h]
  exact Url.append_spells hbase (n.ne_nil r branch) (n.isSegment h)

/-- Branches can be told from the URLs that go over the wire. -/
theorem eq_of_text (n : BranchNaming base url names) (hbase : base.hasSegments = true)
    (h : Nameable r branch) (h' : Nameable r' branch')
    (htext : (url r branch).withoutCredentials.text = (url r' branch').withoutCredentials.text) :
    r.fullPath = r'.fullPath ∧ branch = branch' := by
  obtain ⟨segments, hspells⟩ := n.spells hbase h
  obtain ⟨segments', hspells'⟩ := n.spells hbase h'
  exact n.apart (hspells.names_eq_of_text hspells' htext)

end BranchNaming

/-! ## Deleting what was named -/

/-- A forge deletes the branches that were named and no others. The names are read against `org`, and
`names` says how they stand in a URL. -/
structure DeletesAsNamed (f : Forge Exchange) (api : Client) (org : String)
    (names : RepoPath → String → List String) : Prop where
  /-- One request goes out, for the URL that spells the names. -/
  asks : api.base.isHttp = true → ∀ repo branch x, Nameable (.parse repo org) branch →
    ∃ u segments, (f.deleteBranch repo branch x).state = x.after [.delete u] ∧
      api.base.Spells (names (.parse repo org) branch) u segments
  silent : api.base.isHttp = false → ∀ repo branch x, (f.deleteBranch repo branch x).state = x
  /-- Two requests go to one URL only if they name the same. -/
  apart : ∀ {repo repo' branch branch'} (x x') {q q'},
    Nameable (.parse repo org) branch → Nameable (.parse repo' org) branch' →
    (f.deleteBranch repo branch x).state = x.after [q] →
    (f.deleteBranch repo' branch' x').state = x'.after [q'] →
    (api.message q).url.text = (api.message q').url.text →
    (RepoPath.parse repo org).fullPath = (RepoPath.parse repo' org).fullPath ∧ branch = branch'

theorem DeletesAsNamed.of_naming {f : Forge Exchange} {api : Client} {org : String}
    {url : RepoPath → String → Url} {names : RepoPath → String → List String}
    (hapi : api.Connected) (hnaming : BranchNaming api.base url names)
    (hdelete : ∀ repo branch x, (f.deleteBranch repo branch x).state =
      x.after (if api.base.isHttp then [.delete (url (.parse repo org) branch)] else [])) :
    DeletesAsNamed f api org names where
  asks hbase repo branch x h := by
    obtain ⟨segments, hspells⟩ := hnaming.spells hapi.hasSegments h
    refine ⟨_, segments, ?_, hspells⟩
    rw [hdelete, if_pos hbase]
  silent hbase repo branch x := by
    rw [hdelete, hbase, if_neg Bool.false_ne_true, Exchange.after_nil]
  apart := by
    intro repo repo' branch branch' x x' q q' h h' hstate hstate' htext
    rw [hdelete] at hstate hstate'
    have hsent := x.after_injective hstate
    have hsent' := x'.after_injective hstate'
    by_cases hbase : api.base.isHttp = true
    · rw [if_pos hbase, List.singleton_inj] at hsent hsent'
      subst hsent hsent'
      exact hnaming.eq_of_text hapi.hasSegments h h' htext
    · rw [if_neg hbase] at hsent
      cases hsent

theorem deleteBranch_named :
    (∀ g : GitHub, g.api.Connected → DeletesAsNamed g.forge g.api g.org GitHub.branchNames) ∧
    (∀ g : GitLab, g.api.Connected → DeletesAsNamed g.forge g.api g.group GitLab.branchNames) ∧
    ∀ g : Forgejo, g.api.Connected → DeletesAsNamed g.forge g.api g.org Forgejo.branchNames := by
  refine ⟨fun g hapi => ?_, fun g hapi => ?_, fun g hapi => ?_⟩
  · refine .of_naming hapi g.branchNaming fun repo branch x => ?_
    rw [← g.branchNaming.isHttp (g.repo repo) branch]
    exact Http.state_sendEmpty x
  · refine .of_naming hapi g.branchNaming fun repo branch x => ?_
    rw [← g.branchNaming.isHttp (.parse repo g.group) branch]
    exact Http.state_sendEmpty x
  · refine .of_naming hapi g.branchNaming fun repo branch x => ?_
    rw [← g.branchNaming.isHttp (g.repo repo) branch]
    exact Http.state_sendEmpty x

/-- A branch with signs that mean something in a URL; the repository is named in two ways. -/
theorem deleteBranch_named_signs :
    (∃ u segments, (publicGitHub.forge.deleteBranch "r" "ä/b#?%" ⟨[], #[]⟩).state =
        (Exchange.mk [] #[]).after [.delete u] ∧
      publicGitHub.api.base.Spells
        ["repos", "o", "r", "git", "refs", "heads", "ä", "b#?%"] u segments) ∧
    (RepoPath.parse "r" "o").fullPath = (RepoPath.parse " o/r/ " "o").fullPath := by
  have hnamed := deleteBranch_named.1 publicGitHub publicGitHub_connected
  have hnameable : Nameable (RepoPath.parse "r" "o") "ä/b#?%" := ⟨by decide, by decide, by decide⟩
  have hnameable' : Nameable (RepoPath.parse " o/r/ " "o") "ä/b#?%" :=
    ⟨by decide, by decide, by decide⟩
  refine ⟨hnamed.asks (by decide) "r" "ä/b#?%" ⟨[], #[]⟩ hnameable, ?_⟩
  exact (hnamed.apart ⟨[], #[]⟩ ⟨[], #[]⟩ hnameable hnameable' rfl rfl rfl).1

end ForgeChores
