import ForgeChores.Proofs.Text.Split
import ForgeChores.Proofs.Text.Trim
import ForgeChores.Repository

/-!
# ForgeChores.Proofs.Repository

References to repositories, as texts and as an owner with a name in it.

Of a text only its `core` counts, which has no slash at either end. So around the last slash of a
core there is something on both sides, and these are owner and name (`parse_of_slash`); a core
without a slash is a bare name (`parse_of_bare`). A name has no slash in it, so a full path tells
owner and name apart (`eq_of_fullPath`), and unless something is dropped around it, it reads back as
them (`parse_fullPath`).

* `parse_lossless`: what is read of any text, that its core and its full path are enough to tell,
  and when the full path reads back.
-/

namespace ForgeChores
namespace RepoPath

variable {repo d : String} {r r' : RepoPath} {owner name : List Char}

/-! ## Reading -/

theorem ne_nil_of_core (hcore : core repo = owner ++ '/' :: name) : owner ≠ [] ∧ name ≠ [] := by
  obtain ⟨hfirst, hlast⟩ : Text.Bare (· == '/') (core repo) := Text.bare_stripWhile _ _
  rw [hcore] at hfirst hlast
  constructor
  · rintro rfl
    cases hfirst '/' rfl
  · rintro rfl
    cases hlast '/' List.getLast?_concat

/-- Neither part is empty, so the default owner is not asked for. -/
theorem parse_of_slash (hcore : core repo = owner ++ '/' :: name) (hname : '/' ∉ name)
    (d : String) : parse repo d = ⟨String.ofList owner, String.ofList name⟩ := by
  obtain ⟨howner, hne⟩ := ne_nil_of_core hcore
  unfold parse
  simp only [hcore, Text.splitLast_append_cons hname]
  simp [howner, hne]

theorem parse_of_bare (h : '/' ∉ core repo) (d : String) :
    parse repo d = ⟨d, String.ofList (core repo)⟩ := by
  unfold parse
  simp only [Text.splitLast_of_not_mem h]

theorem slash_not_mem_name (repo d : String) : '/' ∉ (parse repo d).name.toList := by
  by_cases h : '/' ∈ core repo
  · obtain ⟨owner, name, hcore, hname⟩ := Text.exists_last h
    rw [parse_of_slash hcore hname, String.toList_ofList]
    exact hname
  · rw [parse_of_bare h, String.toList_ofList]
    exact h

theorem parse_congr {repo' : String} (h : core repo' = core repo) (d : String) :
    parse repo' d = parse repo d := by
  unfold parse
  rw [h]

/-! ## Full paths -/

theorem toList_fullPath (r : RepoPath) :
    r.fullPath.toList = r.owner.toList ++ '/' :: r.name.toList := by
  simp [fullPath]

theorem eq_of_fullPath (hname : '/' ∉ r.name.toList) (hname' : '/' ∉ r'.name.toList)
    (h : r.fullPath = r'.fullPath) : r = r' := by
  have hsplit : Text.splitLast '/' (r.owner.toList ++ '/' :: r.name.toList) =
      some (r.owner.toList, r.name.toList) := Text.splitLast_append_cons hname
  rw [← toList_fullPath, h, toList_fullPath, Text.splitLast_append_cons hname'] at hsplit
  obtain ⟨owner, name⟩ := r
  obtain ⟨owner', name'⟩ := r'
  simp only [Option.some.injEq, Prod.mk.injEq, String.toList_inj] at hsplit
  obtain ⟨rfl, rfl⟩ := hsplit
  rfl

/-- What is dropped around a reference. -/
def isMargin (c : Char) : Bool := Text.isBlank c || c == '/'

theorem core_of_bare {text : String} (h : Text.Bare isMargin text.toList) :
    core text = text.toList := by
  have hends : ∀ {c : Char}, isMargin c = false → Text.isBlank c = false ∧ (c == '/') = false :=
    fun {_} hc => Bool.or_eq_false_iff.mp hc
  have htrim : Text.stripWhile Text.isBlank text.toList = text.toList :=
    Text.stripWhile_eq_self_iff.mpr
      ⟨fun c hc => (hends (h.1 c hc)).1, fun c hc => (hends (h.2 c hc)).1⟩
  rw [core, Text.trim, String.toList_ofList, htrim]
  exact Text.stripWhile_eq_self_iff.mpr
    ⟨fun c hc => (hends (h.1 c hc)).2, fun c hc => (hends (h.2 c hc)).2⟩

theorem parse_fullPath (h : Text.Bare isMargin r.fullPath.toList) (hname : '/' ∉ r.name.toList)
    (d : String) : parse r.fullPath d = r := by
  have hcore : core r.fullPath = r.owner.toList ++ '/' :: r.name.toList := by
    rw [core_of_bare h, toList_fullPath]
  rw [parse_of_slash hcore hname, String.ofList_toList, String.ofList_toList]

/-- Around a full path nothing is dropped if nothing is dropped before its owner and after its
name. -/
theorem bare_fullPath (howner : r.owner ≠ "") (hname : r.name ≠ "")
    (hfirst : ∀ c ∈ r.owner.toList.head?, isMargin c = false)
    (hlast : ∀ c ∈ r.name.toList.getLast?, isMargin c = false) :
    Text.Bare isMargin r.fullPath.toList := by
  rw [toList_fullPath, List.append_cons]
  refine (Text.bare_append ?_ ?_).mpr ⟨hfirst, hlast⟩
  · simpa using howner
  · simpa using hname

theorem parts_of_slash (h : '/' ∈ core repo) (d : String) :
    (parse repo d).owner ≠ "" ∧ (parse repo d).name ≠ "" ∧
      (parse repo d).owner ++ "/" ++ (parse repo d).name = String.ofList (core repo) ∧
      ∀ d', parse repo d' = parse repo d := by
  obtain ⟨owner, name, hcore, hname⟩ := Text.exists_last h
  obtain ⟨howner, hne⟩ := ne_nil_of_core hcore
  have hparse := parse_of_slash hcore hname
  refine ⟨?_, ?_, ?_, fun d' => (hparse d').trans (hparse d).symm⟩
  · rw [hparse]
    simpa using howner
  · rw [hparse]
    simpa using hne
  · rw [← String.toList_inj, hparse, hcore]
    simp

/-- The ends of the core are no slashes, and those of a bare name's owner are not dropped either. -/
theorem bare_fullPath_parse (hblank : Text.Bare Text.isBlank (core repo))
    (hbare : '/' ∉ core repo → core repo ≠ [] ∧ d ≠ "" ∧ Text.Bare isMargin d.toList) :
    Text.Bare isMargin (parse repo d).fullPath.toList := by
  obtain ⟨hfirst, hlast⟩ : Text.Bare (· == '/') (core repo) := Text.bare_stripWhile _ _
  have hcore : Text.Bare isMargin (core repo) :=
    ⟨fun c hc => Bool.or_eq_false_iff.mpr ⟨hblank.1 c hc, hfirst c hc⟩,
      fun c hc => Bool.or_eq_false_iff.mpr ⟨hblank.2 c hc, hlast c hc⟩⟩
  by_cases hslash : '/' ∈ core repo
  · obtain ⟨-, -, hpath, -⟩ := parts_of_slash hslash d
    rw [fullPath, hpath, String.toList_ofList]
    exact hcore
  · obtain ⟨hne, hd, hmargin⟩ := hbare hslash
    rw [parse_of_bare hslash]
    refine bare_fullPath hd (by simpa using hne) hmargin.1 ?_
    rw [String.toList_ofList]
    exact hcore.2

/-- A text is split at the last slash of its core, whatever the default owner, with something on
either side; without a slash it is a name of the default owner. Nothing else of the text matters.
The full path tells the reference, and reads back as it under any owner, unless white space is left
around the core, or around a bare name or its owner something is missing or dropped. -/
theorem parse_lossless (repo d : String) :
    ('/' ∈ core repo →
      (parse repo d).owner ≠ "" ∧ (parse repo d).name ≠ "" ∧
      (parse repo d).owner ++ "/" ++ (parse repo d).name = String.ofList (core repo) ∧
      ∀ d', parse repo d' = parse repo d) ∧
    ('/' ∉ core repo → parse repo d = ⟨d, String.ofList (core repo)⟩) ∧
    '/' ∉ (parse repo d).name.toList ∧
    (∀ repo', core repo' = core repo → parse repo' d = parse repo d) ∧
    (∀ repo' d', (parse repo' d').fullPath = (parse repo d).fullPath →
      parse repo' d' = parse repo d) ∧
    (Text.Bare Text.isBlank (core repo) →
      ('/' ∉ core repo → core repo ≠ [] ∧ d ≠ "" ∧ Text.Bare isMargin d.toList) →
      ∀ d', parse (parse repo d).fullPath d' = parse repo d) := by
  refine ⟨fun hslash => parts_of_slash hslash d, fun hslash => parse_of_bare hslash d,
    slash_not_mem_name repo d, fun repo' h => parse_congr h d, fun repo' d' h => ?_,
    fun hblank hbare d' => ?_⟩
  · exact eq_of_fullPath (slash_not_mem_name repo' d') (slash_not_mem_name repo d) h
  · exact parse_fullPath (bare_fullPath_parse hblank hbare) (slash_not_mem_name repo d) d'

/-- A nested group with an empty part in it, and a bare name with a blank in it under a nested
owner. -/
theorem parse_lossless_nested :
    parse " //group//sub/app/ " "o" = ⟨"group//sub", "app"⟩ ∧
      (∀ d, parse "group//sub/app" d = ⟨"group//sub", "app"⟩) ∧
      parse "\tmy app/" "team/sub" = ⟨"team/sub", "my app"⟩ ∧
      ∀ d, parse "team/sub/my app" d = ⟨"team/sub", "my app"⟩ := by
  obtain ⟨-, -, -, -, -, hnested⟩ := parse_lossless " //group//sub/app/ " "o"
  obtain ⟨-, -, -, -, -, hbare⟩ := parse_lossless "\tmy app/" "team/sub"
  exact ⟨rfl, hnested (by decide) (fun h => absurd (by decide) h), rfl,
    hbare (by decide) (fun _ => ⟨by decide, by decide, by decide⟩)⟩

end RepoPath
end ForgeChores
