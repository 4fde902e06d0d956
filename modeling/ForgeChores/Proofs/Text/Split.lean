import Mathlib.Data.List.Basic
import ForgeChores.Text

/-!
# ForgeChores.Proofs.Text.Split

Texts and their pieces between separators. Nothing is lost in splitting (`pieces_injective`,
`mem_pieces`), and pieces that were put together come apart again (`splitOn_flatMap`,
`pieces_joined`). The last separator is the one with none behind it
(`exists_last`, `splitLast_append_cons`).
-/

namespace ForgeChores
namespace Text

theorem splitOn_eq (sep : Char) (l : List Char) : splitOn sep l = l.splitOn sep := by
  induction l with
  | nil => exact (List.splitOn_nil sep).symm
  | cons c rest ih =>
    rw [splitOn, List.splitOn_cons_eq_if_modifyHead, ih]
    by_cases hc : c = sep
    · rw [if_pos hc, if_pos (beq_iff_eq.mpr hc)]
    · rw [if_neg hc, if_neg (by simpa using hc)]
      cases hpieces : List.splitOn sep rest with
      | nil => exact absurd hpieces (List.splitOn_ne_nil sep rest)
      | cons piece pieces => rfl

theorem intercalate_splitOn (sep : Char) (l : List Char) : [sep].intercalate (splitOn sep l) = l := by
  rw [splitOn_eq, List.intercalate_splitOn]

theorem not_mem_of_mem_splitOn {sep : Char} {l part : List Char} (h : part ∈ splitOn sep l) :
    sep ∉ part := by
  induction l generalizing part with
  | nil =>
    rw [splitOn, List.mem_singleton] at h
    rw [h]
    exact List.not_mem_nil
  | cons c rest ih =>
    rw [splitOn] at h
    by_cases hc : c = sep
    · rw [if_pos hc, List.mem_cons] at h
      rcases h with rfl | h
      · exact List.not_mem_nil
      · exact ih h
    · rw [if_neg hc] at h
      cases hpieces : splitOn sep rest with
      | nil =>
        rw [hpieces] at h
        obtain rfl := List.mem_singleton.mp h
        exact List.not_mem_cons_of_ne_of_not_mem (Ne.symm hc) List.not_mem_nil
      | cons piece pieces =>
        rw [hpieces] at h ih
        rcases List.mem_cons.mp h with rfl | h
        · exact List.not_mem_cons_of_ne_of_not_mem (Ne.symm hc) (ih List.mem_cons_self)
        · exact ih (List.mem_cons_of_mem _ h)

theorem mem_intercalate {sep c : Char} {parts : List (List Char)}
    (h : c ∈ [sep].intercalate parts) : c = sep ∨ ∃ part ∈ parts, c ∈ part := by
  induction parts with
  | nil => cases h
  | cons part rest ih =>
    cases rest with
    | nil =>
      rw [List.intercalate_singleton] at h
      exact .inr ⟨part, List.mem_cons_self, h⟩
    | cons next more =>
      rw [List.intercalate_cons_cons, List.mem_append, List.mem_append, List.mem_singleton] at h
      rcases h with (hpart | hsep) | hrest
      · exact .inr ⟨part, List.mem_cons_self, hpart⟩
      · exact .inl hsep
      · rcases ih hrest with hsep | ⟨other, hother, hc⟩
        · exact .inl hsep
        · exact .inr ⟨other, List.mem_cons_of_mem _ hother, hc⟩

/-- Pieces that follow a separator each come apart again. -/
theorem splitOn_flatMap {sep : Char} {parts : List (List Char)} (h : ∀ part ∈ parts, sep ∉ part) :
    splitOn sep (parts.flatMap (sep :: ·)) = [] :: parts := by
  have hjoin : ∀ first, [sep].intercalate (first :: parts) = first ++ parts.flatMap (sep :: ·) := by
    clear h
    induction parts with
    | nil => simp
    | cons part rest ih =>
      intro first
      rw [List.intercalate_cons_cons, ih, List.flatMap_cons]
      simp
  have hjoined := hjoin []
  rw [List.nil_append] at hjoined
  rw [splitOn_eq, ← hjoined]
  refine List.splitOn_intercalate sep ?_ (List.cons_ne_nil _ _)
  simpa using h

/-! ## The last separator -/

theorem splitLast_of_not_mem {sep : Char} {l : List Char} (h : sep ∉ l) : splitLast sep l = none :=
  if_neg h

theorem splitLast_append_cons {sep : Char} {before after : List Char} (h : sep ∉ after) :
    splitLast sep (before ++ sep :: after) = some (before, after) := by
  have hmem : sep ∈ before ++ sep :: after := List.mem_append_right _ List.mem_cons_self
  have hother : ∀ c ∈ after.reverse, (c != sep) = true := by
    intro c hc
    rw [bne_iff_ne]
    rintro rfl
    exact h (List.mem_reverse.mp hc)
  -- from the end, the separator comes right after what follows it
  have hreverse : (before ++ sep :: after).reverse = after.reverse ++ sep :: before.reverse := by
    simp
  rw [splitLast, if_pos hmem]
  simp only [hreverse, List.dropWhile_append_of_pos hother, List.takeWhile_append_of_pos hother]
  simp

theorem exists_last {sep : Char} {l : List Char} (h : sep ∈ l) :
    ∃ before after, l = before ++ sep :: after ∧ sep ∉ after := by
  obtain ⟨after, before, hreverse, hafter⟩ := List.eq_append_cons_of_mem (List.mem_reverse.mpr h)
  refine ⟨before.reverse, after.reverse, ?_, by simpa using hafter⟩
  rw [← List.reverse_reverse l, hreverse]
  simp

/-! ## Pieces as texts -/

theorem pieces_injective (sep : Char) : Function.Injective (pieces sep) := by
  intro s s' h
  have hlists : splitOn sep s.toList = splitOn sep s'.toList :=
    List.map_injective_iff.mpr (fun _ _ => String.ofList_injective) h
  rw [← String.toList_inj, ← intercalate_splitOn sep s.toList, hlists, intercalate_splitOn]

theorem pieces_append_cons {sep : Char} {l : List Char} {s : String} (h : sep ∉ l) :
    pieces sep (String.ofList (l ++ sep :: s.toList)) = String.ofList l :: pieces sep s := by
  unfold pieces
  rw [String.toList_ofList, splitOn_eq, List.splitOn_append_cons_self_of_not_mem h, ← splitOn_eq]
  rfl

/-- The pieces with a separator between any two. -/
def joined (sep : Char) (parts : List String) : String :=
  String.ofList ([sep].intercalate (parts.map String.toList))

theorem pieces_joined {sep : Char} {parts : List String} (hne : parts ≠ [])
    (h : ∀ part ∈ parts, sep ∉ part.toList) : pieces sep (joined sep parts) = parts := by
  have hparts : ∀ part ∈ parts.map String.toList, sep ∉ part := by simpa using h
  rw [pieces, joined, String.toList_ofList, splitOn_eq,
    List.splitOn_intercalate sep hparts (by simpa using hne)]
  simp

/-- Every character of a text is a separator or stands in a piece. -/
theorem mem_pieces {sep c : Char} {s : String} (h : c ∈ s.toList) :
    c = sep ∨ ∃ piece ∈ pieces sep s, c ∈ piece.toList := by
  rw [← intercalate_splitOn sep s.toList] at h
  rcases mem_intercalate h with hsep | ⟨part, hpart, hc⟩
  · exact .inl hsep
  · exact .inr ⟨String.ofList part, List.mem_map_of_mem hpart, by simpa using hc⟩

end Text
end ForgeChores
