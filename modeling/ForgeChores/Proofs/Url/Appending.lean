import ForgeChores.Proofs.Text.Split
import ForgeChores.Proofs.Url.Percent
import ForgeChores.Url

/-!
# ForgeChores.Proofs.Url.Appending

What appending to a URL comes to, for names that a path can hold.

* `append_eq`: the path goes on with one written segment for each name.
* `append_spells`: nothing in those segments separates, and unescaped they are the names.
* `Spells.names_eq_of_text`: from the URL as it goes over the wire the names can be told.
-/

namespace ForgeChores

def UrlPath.dropped : List Char := ['\t', '\n', '\r']

/-- A name that a path can hold as one segment: dots alone would be resolved, and some characters
dropped. -/
structure IsSegment (s : String) : Prop where
  ne_empty : s ≠ ""
  ne_dot : s ≠ "."
  ne_dots : s ≠ ".."
  kept : ∀ c ∈ s.toList, c ∉ UrlPath.dropped

theorem isSegment_iff {s : String} :
    IsSegment s ↔ s ≠ "" ∧ s ≠ "." ∧ s ≠ ".." ∧
      s.toList.all (fun c => !UrlPath.dropped.contains c) = true := by
  have hkept : s.toList.all (fun c => !UrlPath.dropped.contains c) = true ↔
      ∀ c ∈ s.toList, c ∉ UrlPath.dropped := by
    rw [List.all_eq_true]
    simp only [Bool.not_eq_true', List.contains_eq_mem, decide_eq_false_iff_not]
  rw [hkept]
  exact ⟨fun h => ⟨h.ne_empty, h.ne_dot, h.ne_dots, h.kept⟩,
    fun ⟨hempty, hdot, hdots, hkept⟩ => ⟨hempty, hdot, hdots, hkept⟩⟩

instance (s : String) : Decidable (IsSegment s) := decidable_of_iff' _ isSegment_iff

namespace UrlPath

variable {escaped : Char → Bool} {parts names : List String}

def written (escaped : Char → Bool) (name : String) : String :=
  String.ofList (Percent.encode escaped name.toList)

/-- The segments that stay when another one is added: the root gives up its empty one. -/
def stem (parts : List String) : List String := if parts = [""] then [] else parts

theorem stem_of_ne (h : parts ≠ [""]) : stem parts = parts := if_neg h

theorem add_eq (parts : List String) (w : String) : add parts w = stem parts ++ [w] := by
  unfold add stem
  by_cases h : parts = [""]
  · rw [if_pos h, if_pos h]
    rfl
  · rw [if_neg h, if_neg h]

theorem written_injective (h : Percent.SegmentSet escaped) : Function.Injective (written escaped) :=
  fun _ _ hwritten => Percent.encode_injective h (String.ofList_injective hwritten)

theorem written_ne_empty (h : Percent.SegmentSet escaped) {name : String} (hname : name ≠ "") :
    written escaped name ≠ "" :=
  fun hempty => hname (written_injective h hempty)

theorem push_of_isSegment {name : String} (h : IsSegment name) :
    push escaped parts name = stem parts ++ [written escaped name] := by
  have hkept : (name.toList.filter fun c => c != '\t' && c != '\n' && c != '\r') = name.toList := by
    rw [List.filter_eq_self]
    intro c hc
    simpa [dropped, and_assoc] using h.kept c hc
  have hdot : name.toList ≠ ['.'] := fun hdot => h.ne_dot (String.toList_inj.mp hdot)
  have hdots : name.toList ≠ ['.', '.'] := fun hdots => h.ne_dots (String.toList_inj.mp hdots)
  unfold push
  rw [if_neg (not_or.mpr ⟨h.ne_dot, h.ne_dots⟩)]
  simp only [hkept]
  rw [if_neg hdot, if_neg hdots, add_eq]
  rfl

theorem append_written_ne (h : Percent.SegmentSet escaped) {name : String} (hname : IsSegment name) :
    parts ++ [written escaped name] ≠ [""] := by
  intro hroot
  cases parts with
  | nil => exact written_ne_empty h hname.ne_empty (List.singleton_inj.mp hroot)
  | cons part rest => simp at hroot

theorem foldl_push_of_ne (h : Percent.SegmentSet escaped) (hparts : parts ≠ [""])
    (hnames : ∀ name ∈ names, IsSegment name) :
    names.foldl (push escaped) parts = parts ++ names.map (written escaped) := by
  induction names generalizing parts with
  | nil => exact (List.append_nil parts).symm
  | cons name rest ih =>
    have hname := hnames name List.mem_cons_self
    rw [List.foldl_cons, push_of_isSegment hname, stem_of_ne hparts,
      ih (append_written_ne h hname) fun n hn => hnames n (List.mem_cons_of_mem _ hn),
      List.append_assoc]
    rfl

/-- Only the first name can meet the root. -/
theorem foldl_push (h : Percent.SegmentSet escaped) (hne : names ≠ [])
    (hnames : ∀ name ∈ names, IsSegment name) :
    names.foldl (push escaped) parts = stem parts ++ names.map (written escaped) := by
  cases names with
  | nil => exact absurd rfl hne
  | cons name rest =>
    have hname := hnames name List.mem_cons_self
    rw [List.foldl_cons, push_of_isSegment hname,
      foldl_push_of_ne h (append_written_ne h hname) fun n hn =>
        hnames n (List.mem_cons_of_mem _ hn),
      List.append_assoc]
    rfl

theorem toList_text (parts : List String) :
    (UrlPath.segments parts).text.toList = (parts.map String.toList).flatMap ('/' :: ·) := by
  have hfold : ∀ acc : String, (parts.foldl (fun acc part => acc ++ "/" ++ part) acc).toList =
      acc.toList ++ (parts.map String.toList).flatMap ('/' :: ·) := by
    induction parts with
    | nil => simp
    | cons part rest ih =>
      intro acc
      rw [List.foldl_cons, ih, List.map_cons, List.flatMap_cons]
      simp
  exact hfold ""

/-- Segments can be told from the text of the path if nothing in them separates. -/
theorem segments_eq_of_text {front segments segments' : List String}
    (h : ∀ segment ∈ segments, '/' ∉ segment.toList)
    (h' : ∀ segment ∈ segments', '/' ∉ segment.toList)
    (htext : (UrlPath.segments (front ++ segments)).text =
      (UrlPath.segments (front ++ segments')).text) : segments = segments' := by
  have hlists := congrArg String.toList htext
  rw [toList_text, toList_text, List.map_append, List.map_append, List.flatMap_append,
    List.flatMap_append, List.append_cancel_left_eq] at hlists
  have hsplit := congrArg (Text.splitOn '/') hlists
  rw [Text.splitOn_flatMap (List.forall_mem_map.mpr h),
    Text.splitOn_flatMap (List.forall_mem_map.mpr h'), List.cons.injEq] at hsplit
  exact List.map_injective_iff.mpr (fun _ _ => String.toList_injective) hsplit.2

end UrlPath

namespace Url

open UrlPath (written stem)

variable {u : Url} {parts names names' : List String}

def withPath (u : Url) (path : UrlPath) : Url := { u with path := path }

/-- The characters that are escaped when a segment is appended. -/
def escapedInSegment (u : Url) : Char → Bool :=
  if isSpecialScheme u.scheme then Percent.inSpecialSegment else Percent.inSegment

theorem segmentSet_escapedInSegment (u : Url) : Percent.SegmentSet u.escapedInSegment := by
  unfold escapedInSegment
  split
  · exact Percent.segmentSet_inSpecialSegment
  · exact Percent.segmentSet_inSegment

theorem append_eq (hpath : u.path = .segments parts) (hne : names ≠ [])
    (hnames : ∀ name ∈ names, IsSegment name) :
    u.append names =
      u.withPath (.segments (stem (UrlPath.withoutTrailingSlash parts) ++
        names.map (written u.escapedInSegment))) := by
  unfold append
  rw [hpath]
  exact congrArg (fun path => u.withPath (.segments path))
    (UrlPath.foldl_push u.segmentSet_escapedInSegment hne hnames)

/-- A URL below another one: its path goes on with a segment for each name. In those segments nothing
stands that has to be escaped, and unescaped they are the names. -/
structure Spells (base : Url) (names : List String) (u : Url) (segments : List String) : Prop where
  below : ∃ parts, base.path = .segments parts ∧
    u = base.withPath (.segments (stem (UrlPath.withoutTrailingSlash parts) ++ segments))
  escaped : ∀ segment ∈ segments, ∀ c ∈ segment.toList, base.escapedInSegment c = false ∨ c = '%'
  names_eq : segments.map Percent.decode = names.map Text.Utf8.encode

theorem Spells.slash_not_mem {base : Url} {segments : List String}
    (h : Spells base names u segments) : ∀ segment ∈ segments, '/' ∉ segment.toList := by
  intro segment hsegment hslash
  rcases h.escaped segment hsegment '/' hslash with hescaped | hpercent
  · cases base.segmentSet_escapedInSegment.not_inSegment hescaped
  · cases hpercent

theorem append_spells (hu : u.hasSegments = true) (hne : names ≠ [])
    (hnames : ∀ name ∈ names, IsSegment name) :
    ∃ segments, Spells u names (u.append names) segments := by
  obtain ⟨parts, hpath⟩ : ∃ parts, u.path = .segments parts := by
    unfold hasSegments at hu
    split at hu
    · exact ⟨_, ‹_›⟩
    · cases hu
  have hset := u.segmentSet_escapedInSegment
  refine ⟨names.map (written u.escapedInSegment), ⟨parts, hpath, append_eq hpath hne hnames⟩, ?_, ?_⟩
  · intro segment hsegment c hc
    obtain ⟨name, -, rfl⟩ := List.mem_map.mp hsegment
    rw [written, String.toList_ofList] at hc
    exact Percent.of_mem_encode hset hc
  · rw [List.map_map]
    exact List.map_congr_left fun name _ => Percent.decode_encode hset name

/-! ## Over the wire -/

theorem withoutCredentials_withPath (u : Url) (path : UrlPath) :
    (u.withPath path).withoutCredentials = u.withoutCredentials.withPath path := by
  have hcredentials : (u.withPath path).credentials? = u.credentials? := rfl
  unfold withoutCredentials
  rw [hcredentials]
  split <;> rfl

def beforePath (u : Url) : String :=
  u.scheme ++ ":" ++
    match u.authority with
    | some a => "//" ++ a.text
    | none => ""

def afterPath (u : Url) : String :=
  (match u.query with
    | some q => "?" ++ q
    | none => "") ++
    match u.fragment with
    | some f => "#" ++ f
    | none => ""

/-- The path stands between texts that do not depend on it. -/
theorem text_withPath (u : Url) (path : UrlPath) :
    (u.withPath path).text = u.beforePath ++ path.text ++ u.afterPath :=
  String.append_assoc

theorem Spells.names_eq_of_text {base u u' : Url} {segments segments' : List String}
    (h : Spells base names u segments) (h' : Spells base names' u' segments')
    (htext : u.withoutCredentials.text = u'.withoutCredentials.text) : names = names' := by
  obtain ⟨parts, hpath, rfl⟩ := h.below
  obtain ⟨parts', hpath', rfl⟩ := h'.below
  obtain rfl : parts = parts' := UrlPath.segments.inj (hpath.symm.trans hpath')
  rw [withoutCredentials_withPath, withoutCredentials_withPath, text_withPath, text_withPath,
    String.append_left_inj, String.append_right_inj] at htext
  obtain rfl : segments = segments' :=
    UrlPath.segments_eq_of_text h.slash_not_mem h'.slash_not_mem htext
  have hbytes := h.names_eq.symm.trans h'.names_eq
  exact List.map_injective_iff.mpr Text.Utf8.encode_injective hbytes

end Url
end ForgeChores
