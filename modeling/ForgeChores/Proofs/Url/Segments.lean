import ForgeChores.Proofs.Activity
import ForgeChores.Proofs.Http.Connecting
import ForgeChores.Proofs.Url.Appending
import ForgeChores.Proofs.Url.Trimmed

/-!
# ForgeChores.Proofs.Url.Segments

The path of a URL, split at its slashes, before and after names are appended to it.

What is read of a URL of the web has segments in which nothing separates (`plain_of_parse`), and so
has what is written of names. So splitting the text of the path gives the segments back
(`pathSegments_eq`), and the names can be told from the URL.

* `pathSegments_append`: appending adds one segment for each name to those that are there.
* `url_reversible`: nothing else about the base changes, and the names are read back.
-/

namespace ForgeChores

/-- What ends a segment or the whole path. -/
def UrlPath.separators : List Char := ['/', '?', '#']

/-- Nothing in the segments separates. -/
def UrlPath.Plain (parts : List String) : Prop :=
  ∀ part ∈ parts, ∀ c ∈ part.toList, c ∉ separators

namespace Url

open UrlPath (written stem Plain separators withoutTrailingSlash)

variable {u : Url} {parts names : List String}

/-! ## Reading -/

/-- Resolving dots makes no new segment but the empty one. -/
theorem forall_mem_resolve {P : List Char → Prop} (hempty : P []) {resolved parts : List (List Char)}
    (hresolved : ∀ part ∈ resolved, P part) (hparts : ∀ part ∈ parts, P part) :
    ∀ part ∈ resolve resolved parts, P part := by
  induction parts generalizing resolved with
  | nil =>
    rw [resolve]
    exact hresolved
  | cons part rest ih =>
    obtain ⟨hpart, hrest⟩ := List.forall_mem_cons.mp hparts
    have hdropped : ∀ part ∈ resolved.dropLast, P part :=
      fun part hmem => hresolved part (List.dropLast_subset _ hmem)
    have hadded : ∀ {front : List (List Char)} {last : List Char}, (∀ part ∈ front, P part) →
        P last → ∀ part ∈ front ++ [last], P part :=
      fun hfront hlast => List.forall_mem_append.mpr ⟨hfront, by simpa using hlast⟩
    cases rest with
    | nil =>
      simp only [resolve]
      split
      · exact hadded hdropped hempty
      · split
        · exact hadded hresolved hempty
        · exact hadded hresolved hpart
    | cons next more =>
      simp only [resolve]
      split
      · exact ih hdropped hrest
      · split
        · exact ih hresolved hrest
        · exact ih (hadded hresolved hpart) hrest

/-- A segment without slashes is written without separators. -/
theorem plain_encode {escaped : Char → Bool} (hmark : escaped '?' = true)
    (hhash : escaped '#' = true) {l : List Char} (hl : escaped '/' = true ∨ '/' ∉ l) :
    ∀ c ∈ Percent.encode escaped l, c ∉ separators := by
  intro c hc hsep
  have hescaped : ∀ c ∈ ['?', '#'], escaped c = true := by simp [hmark, hhash]
  have hdigits : ∀ n < 16, Text.upperHexDigit n ∉ separators := by decide
  rcases Percent.mem_encode hc with ⟨hmem, hkept⟩ | rfl | ⟨n, hn, rfl⟩
  · rcases List.mem_cons.mp hsep with rfl | hother
    · rcases hl with hslash | hslash
      · rw [hslash] at hkept
        cases hkept
      · exact hslash hmem
    · rw [hescaped c hother] at hkept
      cases hkept
  · revert hsep
    decide
  · exact hdigits n hn hsep

theorem plain_readPath {pathText : List Char} (h : readPath .special pathText = .segments parts) :
    Plain parts := by
  have hsplit : ∀ part ∈ splitPath .special pathText, '/' ∉ part :=
    fun part hpart => Text.not_mem_of_mem_splitOn hpart
  unfold readPath at h
  simp only [reduceCtorEq, if_false, beq_iff_eq] at h
  generalize splitPath .special pathText = pieces at h hsplit
  rw [← UrlPath.segments.inj h]
  refine List.forall_mem_map.mpr fun part hpart c hc => ?_
  have hslash : '/' ∉ part := by
    refine forall_mem_resolve (P := ('/' ∉ ·)) List.not_mem_nil (by simp) ?_ part hpart
    split
    · exact fun part hmem => hsplit part (List.mem_cons_of_mem _ hmem)
    · exact hsplit
  rw [String.toList_ofList] at hc
  exact plain_encode rfl rfl (.inr hslash) c hc

theorem scheme_of_parse {s : String} (h : parse s = .ok u) :
    ∃ rest, splitScheme (clean s) = some (u.scheme, rest) := by
  unfold parse at h
  cases hs : splitScheme (clean s) with
  | none =>
    rw [hs] at h
    cases h
  | some found =>
    obtain ⟨scheme, rest⟩ := found
    simp only [hs] at h
    suffices hscheme : u.scheme = scheme by exact ⟨rest, by rw [hscheme]⟩
    cases hkind : schemeKind scheme with
    | special =>
      simp only [hkind] at h
      obtain ⟨a, -, hu⟩ := except_bind_eq_ok.mp h
      cases hu
      rfl
    | file =>
      simp only [hkind] at h
      split at h
      · split at h
        · split at h
          · cases h
            rfl
          · obtain ⟨host, -, hu⟩ := except_bind_eq_ok.mp h
            cases hu
            rfl
        · cases h
          rfl
      · cases h
        rfl
    | other =>
      simp only [hkind] at h
      split at h
      · obtain ⟨a, -, hu⟩ := except_bind_eq_ok.mp h
        cases hu
        rfl
      · cases h
        rfl
      · cases h
        rfl

theorem plain_of_parse {s : String} (h : parse s = .ok u) (hhttp : u.isHttp = true) :
    ∃ parts, u.path = .segments parts ∧ Plain parts := by
  obtain ⟨rest, hs⟩ := scheme_of_parse h
  have hweb : u.scheme ∈ webSchemes := by
    simpa [isHttp, webSchemes] using hhttp
  obtain ⟨_, parts, _, _, hpath, hparse⟩ := parse_of_special hs (schemeKind_web hweb)
  rw [h] at hparse
  cases ha : readAuthority u.scheme .special (authorityText rest) with
  | error e =>
    rw [ha] at hparse
    cases hparse
  | ok a =>
    rw [ha] at hparse
    exact ⟨parts, congrArg Url.path (Except.ok.inj hparse), plain_readPath hpath⟩

/-! ## Paths -/

/-- The path split at its slashes, the first of which begins it. The root has no segment. -/
def pathSegments (u : Url) : List String :=
  if u.path.text = "/" then [] else (Text.pieces '/' u.path.text).tail

/-- The segments without an empty one at the end. -/
def directory (u : Url) : List String :=
  if u.pathSegments.getLast? = some "" then u.pathSegments.dropLast else u.pathSegments

theorem pieces_text (hparts : Plain parts) :
    Text.pieces '/' (UrlPath.segments parts).text = "" :: parts := by
  have hslash : ∀ part ∈ parts.map String.toList, '/' ∉ part := by
    refine List.forall_mem_map.mpr fun part hpart hmem => hparts part hpart '/' hmem ?_
    decide
  unfold Text.pieces
  rw [UrlPath.toList_text, Text.splitOn_flatMap hslash, List.map_cons, List.map_map]
  have hid : String.ofList ∘ String.toList = id := funext fun _ => String.ofList_toList
  rw [hid, List.map_id]

theorem text_injective {parts' : List String} (hparts : Plain parts) (hparts' : Plain parts')
    (h : (UrlPath.segments parts).text = (UrlPath.segments parts').text) : parts = parts' := by
  have hpieces := pieces_text hparts
  rw [h, pieces_text hparts'] at hpieces
  exact (List.cons.inj hpieces).2.symm

theorem plain_root : Plain [""] := by
  simp [Plain]

/-- Splitting the text of a path gives its segments. -/
theorem pathSegments_eq (hpath : u.path = .segments parts) (hparts : Plain parts) :
    u.pathSegments = stem parts := by
  unfold pathSegments stem
  rw [hpath, pieces_text hparts, List.tail_cons]
  by_cases hroot : parts = [""]
  · rw [hroot]
    rfl
  · have htext : (UrlPath.segments parts).text ≠ "/" := fun htext =>
      hroot (text_injective hparts plain_root htext)
    rw [if_neg htext, if_neg hroot]

/-- An empty segment at the end gives way, as long as what is left is not mistaken for the root. -/
theorem stem_withoutTrailingSlash (hparts : parts ≠ ["", ""]) :
    stem (withoutTrailingSlash parts) =
      if (stem parts).getLast? = some "" then (stem parts).dropLast else stem parts := by
  by_cases hroot : parts = [""]
  · subst hroot
    rfl
  · rw [UrlPath.stem_of_ne hroot]
    by_cases hlast : parts.getLast? = some ""
    · have hconcat : parts.dropLast ++ [""] = parts := List.dropLast_append_getLast? "" hlast
      have hlong : 1 < parts.length := by
        rcases hfront : parts.dropLast with _ | ⟨part, front⟩
        · rw [hfront] at hconcat
          exact absurd hconcat.symm hroot
        · rw [← hconcat, hfront]
          simp
      have hstem : parts.dropLast ≠ [""] := by
        intro hfront
        rw [hfront] at hconcat
        exact hparts hconcat.symm
      rw [withoutTrailingSlash, if_pos ⟨hlast, hlong⟩, if_pos hlast, UrlPath.stem_of_ne hstem]
    · rw [withoutTrailingSlash, if_neg fun h => hlast h.1, if_neg hlast, UrlPath.stem_of_ne hroot]

theorem directory_eq (hpath : u.path = .segments parts) (hparts : Plain parts)
    (htext : u.path.text ≠ "//") : u.directory = stem (withoutTrailingSlash parts) := by
  have hne : parts ≠ ["", ""] := by
    rintro rfl
    rw [hpath] at htext
    exact htext rfl
  rw [stem_withoutTrailingSlash hne, ← pathSegments_eq hpath hparts]
  rfl

theorem plain_stem (hparts : Plain parts) : Plain (stem parts) := by
  unfold stem
  split
  · exact fun part hpart => absurd hpart List.not_mem_nil
  · exact hparts

theorem plain_withoutTrailingSlash (hparts : Plain parts) : Plain (withoutTrailingSlash parts) := by
  unfold withoutTrailingSlash
  split
  · exact fun part hpart => hparts part (List.dropLast_subset _ hpart)
  · exact hparts

theorem plain_written (u : Url) (names : List String) :
    Plain (names.map (written u.escapedInSegment)) := by
  have hset := u.segmentSet_escapedInSegment
  refine List.forall_mem_map.mpr fun name _ c hc => ?_
  rw [written, String.toList_ofList] at hc
  exact plain_encode (hset.covers '?' rfl) (hset.covers '#' rfl) (.inl (hset.covers '/' rfl)) c hc

/-- What appending makes of the path, with names or without. -/
theorem append_segments (hpath : u.path = .segments parts) (hparts : Plain parts)
    (hnames : ∀ name ∈ names, IsSegment name) :
    ∃ parts', u.append names = u.withPath (.segments parts') ∧ Plain parts' ∧
      stem parts' = stem (withoutTrailingSlash parts) ++ names.map (written u.escapedInSegment) := by
  cases names with
  | nil =>
    refine ⟨withoutTrailingSlash parts, ?_, plain_withoutTrailingSlash hparts,
      (List.append_nil _).symm⟩
    unfold append
    rw [hpath]
    rfl
  | cons name rest =>
    refine ⟨_, append_eq hpath (List.cons_ne_nil _ _) hnames, ?_, UrlPath.stem_of_ne fun hroot => ?_⟩
    · exact List.forall_mem_append.mpr
        ⟨plain_stem (plain_withoutTrailingSlash hparts), plain_written u _⟩
    · -- the first name is not written as nothing
      have hmem : written u.escapedInSegment name ∈ [""] := by
        rw [← hroot]
        simp
      exact UrlPath.written_ne_empty u.segmentSet_escapedInSegment
        (hnames name List.mem_cons_self).ne_empty (List.mem_singleton.mp hmem)

/-- Appending adds one segment for each name. -/
theorem pathSegments_append (hpath : u.path = .segments parts) (hparts : Plain parts)
    (htext : u.path.text ≠ "//") (hnames : ∀ name ∈ names, IsSegment name) :
    (u.append names).pathSegments =
      u.directory ++ names.map (written u.escapedInSegment) := by
  obtain ⟨parts', happend, hplain, hstem⟩ := append_segments hpath hparts hnames
  rw [happend, pathSegments_eq rfl hplain, hstem, directory_eq hpath hparts htext]

/-- Nothing in the path ends it. -/
theorem path_unended (hpath : u.path = .segments parts) (hparts : Plain parts) :
    ∀ c ∈ u.path.text.toList, c ≠ '?' ∧ c ≠ '#' := by
  intro c hc
  rw [hpath, UrlPath.toList_text, List.mem_flatMap] at hc
  obtain ⟨part, hpart, hc⟩ := hc
  obtain ⟨part, hmem, rfl⟩ := List.mem_map.mp hpart
  rcases List.mem_cons.mp hc with rfl | hc
  · decide
  · have hplain := hparts part hmem c hc
    simp only [separators, List.mem_cons, not_or] at hplain
    exact ⟨hplain.2.1, hplain.2.2.1⟩

theorem names_eq_of_text (hpath : u.path = .segments parts) (hparts : Plain parts)
    {names' : List String} (hnames : ∀ name ∈ names, IsSegment name)
    (hnames' : ∀ name ∈ names', IsSegment name)
    (h : (u.append names).text = (u.append names').text) : names = names' := by
  obtain ⟨segments, happend, hplain, hstem⟩ := append_segments hpath hparts hnames
  obtain ⟨segments', happend', hplain', hstem'⟩ := append_segments hpath hparts hnames'
  rw [happend, happend', text_withPath, text_withPath, String.append_left_inj,
    String.append_right_inj] at h
  rw [text_injective hplain hplain' h, hstem', List.append_cancel_left_eq] at hstem
  exact (List.map_injective_iff.mpr (UrlPath.written_injective u.segmentSet_escapedInSegment)
    hstem).symm

end Url

/-! ## Clients -/

namespace Client

theorem readBase_of_connect {apiBase : String} {auth : Auth}
    {extraHeaders : List (String × String)} {c : Client}
    (h : connect apiBase auth extraHeaders = .ok c) : readBase apiBase = .ok c.base := by
  rw [connect_eq] at h
  obtain ⟨base, hbase, hmade⟩ := except_bind_eq_ok.mp h
  split at hmade
  · cases hmade
    exact hbase
  · cases hmade

theorem parse_of_readBase {apiBase : String} {base : Url} (h : readBase apiBase = .ok base) :
    Url.parse (Text.trimEnd '/' apiBase) = .ok base := by
  unfold readBase at h
  split at h
  · cases h
  · rename_i found hparse
    split at h
    · cases h
      exact hparse
    · cases h

/-- A URL that is built below the base of a client differs from it in the path alone. Split at its
slashes, that has the segments of the base and then one for each name, which is the name once it is
unescaped. Nothing in the path ends it, and other names make another URL. -/
theorem url_reversible {apiBase : String} {auth : Auth} {extraHeaders : List (String × String)}
    {c : Client} {names : List String} (hconnect : connect apiBase auth extraHeaders = .ok c)
    (hhttp : c.base.isHttp = true) (htext : c.base.path.text ≠ "//")
    (hnames : ∀ name ∈ names, IsSegment name) :
    ((c.url names).scheme = c.base.scheme ∧ (c.url names).authority = c.base.authority ∧
      (c.url names).query = c.base.query ∧ (c.url names).fragment = c.base.fragment) ∧
    (∃ written, (c.url names).pathSegments = c.base.directory ++ written ∧
      written.map Percent.decode = names.map Text.Utf8.encode) ∧
    (∀ ch ∈ (c.url names).path.text.toList, ch ≠ '?' ∧ ch ≠ '#') ∧
    ∀ names', (∀ name ∈ names', IsSegment name) → (c.url names).text = (c.url names').text →
      names = names' := by
  obtain ⟨parts, hpath, hparts⟩ := Url.plain_of_parse
    (parse_of_readBase (readBase_of_connect hconnect)) hhttp
  obtain ⟨segments, happend, hplain, -⟩ := Url.append_segments hpath hparts hnames
  have hurl : c.url names = c.base.withPath (.segments segments) := happend
  refine ⟨?_, ⟨names.map (UrlPath.written c.base.escapedInSegment),
    Url.pathSegments_append hpath hparts htext hnames, ?_⟩, ?_, ?_⟩
  · rw [hurl]
    exact ⟨rfl, rfl, rfl, rfl⟩
  · rw [List.map_map]
    exact List.map_congr_left fun name _ =>
      Percent.decode_encode c.base.segmentSet_escapedInSegment name
  · rw [hurl]
    exact Url.path_unended rfl hplain
  · exact fun names' hnames' => Url.names_eq_of_text hpath hparts hnames hnames'

/-- A base whose path ends in a slash. -/
def slashed : Client :=
  ⟨⟨"https", some ⟨"user", none, "h.example", some 8443⟩, .segments ["api", "v4", ""], some "x=1",
    some "top"⟩, .token "t", []⟩

/-- Names that would separate, begin a query or a fragment, or pass for escapes. -/
def delicate : List String := ["group/sub", "50%2F?", "#é"]

theorem url_reversible_delicate :
    connect "https://user@h.example:8443/api/v4/?x=1#top" (.token "t") [] = .ok slashed ∧
      slashed.base.isHttp = true ∧ slashed.base.path.text ≠ "//" ∧
      (∀ name ∈ delicate, IsSegment name) ∧ slashed.base.directory = ["api", "v4"] ∧
      (slashed.url delicate).text =
        "https://user@h.example:8443/api/v4/group%2Fsub/50%252F%3F/%23%C3%A9?x=1#top" ∧
      (∃ written, (slashed.url delicate).pathSegments = slashed.base.directory ++ written ∧
        written.map Percent.decode = delicate.map Text.Utf8.encode) ∧
      (slashed.url delicate).text ≠ (slashed.url ["group", "sub", "50%2F?", "#é"]).text := by
  have hconnect : connect "https://user@h.example:8443/api/v4/?x=1#top" (.token "t") [] =
      .ok slashed := by rfl
  have hnames : ∀ name ∈ delicate, IsSegment name := by decide
  have htext : slashed.base.path.text ≠ "//" := by decide
  obtain ⟨-, hwritten, -, hother⟩ := url_reversible hconnect (by decide) htext hnames
  exact ⟨hconnect, by decide, htext, hnames, by decide, by decide, hwritten,
    fun h => absurd (hother _ (by decide) h) (by decide)⟩

end Client
end ForgeChores
