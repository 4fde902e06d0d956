import Mathlib.Data.List.DropRight
import ForgeChores.Text

/-!
# ForgeChores.Proofs.Text.Trim

What trimming leaves of a text: nothing is lost but characters of the kind that is dropped
(`exists_dropped`), and what stands before a character of another kind stays
(`dropEndWhile_append_cons`). Nothing is left exactly of texts that are blank (`trim_eq_empty_iff`),
and white space around a text leaves no trace (`trim_padded`). A text stays as it is exactly if it is
`Bare` of what is dropped (`stripWhile_eq_self_iff`).
-/

namespace ForgeChores
namespace Text

variable {α β : Type} {p : α → Bool}

theorem dropEndWhile_eq (l : List α) : dropEndWhile p l = l.rdropWhile p := rfl

theorem exists_dropped (p : α → Bool) (l : List α) :
    ∃ dropped, dropEndWhile p l ++ dropped = l ∧ ∀ a ∈ dropped, p a = true :=
  ⟨l.rtakeWhile p, List.rdropWhile_append_rtakeWhile, fun _ => List.mem_rtakeWhile_imp⟩

theorem dropEndWhile_concat_of_not {a : α} (h : p a = false) (l : List α) :
    dropEndWhile p (l ++ [a]) = l ++ [a] :=
  List.rdropWhile_concat_neg p l a (by rw [h]; exact Bool.false_ne_true)

/-- By induction on what follows, from its end. -/
theorem dropEndWhile_append_cons {a : α} (h : p a = false) (l rest : List α) :
    dropEndWhile p (l ++ a :: rest) = l ++ a :: dropEndWhile p rest := by
  induction rest using List.reverseRecOn with
  | nil => exact dropEndWhile_concat_of_not h l
  | append_singleton rest b ih =>
    have hassoc : l ++ a :: (rest ++ [b]) = (l ++ a :: rest) ++ [b] := by simp
    rw [dropEndWhile_eq] at ih
    rw [hassoc, dropEndWhile_eq, dropEndWhile_eq, List.rdropWhile_concat, List.rdropWhile_concat]
    by_cases hb : p b = true
    · rw [if_pos hb, if_pos hb, ih, dropEndWhile_eq]
    · rw [if_neg hb, if_neg hb, hassoc]

theorem toList_trimEnd (c : Char) (s : String) :
    (trimEnd c s).toList = dropEndWhile (· == c) s.toList := String.toList_ofList

theorem stripWhile_eq_nil_iff {l : List α} : stripWhile p l = [] ↔ ∀ a ∈ l, p a = true := by
  unfold stripWhile
  rw [dropEndWhile_eq, List.rdropWhile_eq_nil_iff]
  constructor
  · intro h
    have hdropped : l.dropWhile p = [] := by
      by_contra hne
      have hhead := List.head_dropWhile_not p hne
      rw [h _ (List.head_mem hne)] at hhead
      cases hhead
    exact List.dropWhile_eq_nil_iff.mp hdropped
  · intro h a ha
    exact h a ((List.dropWhile_sublist p).mem ha)

theorem trim_eq_empty_iff {s : String} : trim s = "" ↔ ∀ c ∈ s.toList, isBlank c = true := by
  unfold trim
  rw [String.ofList_eq_empty_iff, stripWhile_eq_nil_iff]

theorem stripWhile_idempotent (p : α → Bool) (l : List α) :
    stripWhile p (stripWhile p l) = stripWhile p l := by
  have hstart : (stripWhile p l).dropWhile p = stripWhile p l := by
    rw [List.dropWhile_eq_self_iff]
    intro hpos
    -- the first that is left is the first that was not dropped
    have hfront : stripWhile p l <+: l.dropWhile p := List.rdropWhile_prefix p _
    have hne : l.dropWhile p ≠ [] := by
      intro hnil
      rw [hnil, List.prefix_nil] at hfront
      rw [hfront] at hpos
      cases hpos
    have hfirst := List.head_dropWhile_not p hne
    rw [hfront.getElem hpos, ← List.head_eq_getElem hne, hfirst]
    exact Bool.false_ne_true
  rw [stripWhile, hstart, stripWhile, dropEndWhile_eq, dropEndWhile_eq,
    List.rdropWhile_idempotent]

/-- Neither end is of the kind `p`. -/
def Bare (p : α → Bool) (l : List α) : Prop :=
  (∀ a ∈ l.head?, p a = false) ∧ ∀ a ∈ l.getLast?, p a = false

instance (p : α → Bool) (l : List α) : Decidable (Bare p l) := inferInstanceAs (Decidable (_ ∧ _))

theorem stripWhile_eq_self_iff {l : List α} : stripWhile p l = l ↔ Bare p l := by
  cases l with
  | nil => exact iff_of_true rfl ⟨nofun, nofun⟩
  | cons a rest =>
    have hhead : (a :: rest).dropWhile p = a :: rest ↔ p a = false := by
      simp [List.dropWhile_eq_self_iff]
    have hlast : (a :: rest).rdropWhile p = a :: rest ↔
        ∀ b ∈ (a :: rest).getLast?, p b = false := by
      simp [List.rdropWhile_eq_self_iff, List.getLast?_eq_some_getLast]
    constructor
    · intro h
      -- as long as before, so nothing was dropped in front
      have hlength : (a :: rest).length ≤ ((a :: rest).dropWhile p).length := by
        conv_lhs => rw [← h]
        exact (List.rdropWhile_prefix p _).length_le
      have hfront : (a :: rest).dropWhile p = a :: rest :=
        (List.dropWhile_suffix p).eq_of_length_le hlength
      rw [stripWhile, hfront, dropEndWhile_eq] at h
      exact ⟨by simpa using hhead.mp hfront, hlast.mp h⟩
    · rintro ⟨hfirst, hend⟩
      rw [stripWhile, hhead.mpr (hfirst a rfl), dropEndWhile_eq, hlast.mpr hend]

theorem bare_stripWhile (p : α → Bool) (l : List α) : Bare p (stripWhile p l) :=
  stripWhile_eq_self_iff.mp (stripWhile_idempotent p l)

theorem bare_append {l l' middle : List α} (hl : l ≠ []) (hl' : l' ≠ []) :
    Bare p (l ++ middle ++ l') ↔
      (∀ a ∈ l.head?, p a = false) ∧ ∀ a ∈ l'.getLast?, p a = false := by
  rw [Bare, List.append_assoc, List.head?_append_of_ne_nil _ hl, ← List.append_assoc,
    List.getLast?_append_of_ne_nil _ hl']

theorem trim_trim (s : String) : trim (trim s) = trim s := by
  unfold trim
  rw [String.toList_ofList, stripWhile_idempotent]

theorem stripWhile_of_append {before l after : List α} (hbefore : ∀ a ∈ before, p a = true)
    (hafter : ∀ a ∈ after, p a = true) : stripWhile p (before ++ l ++ after) = stripWhile p l := by
  have hback : ∀ l', dropEndWhile p (l' ++ after) = dropEndWhile p l' := by
    intro l'
    rw [dropEndWhile, List.reverse_append, List.dropWhile_append_of_pos]
    · rfl
    · simpa using hafter
  rw [stripWhile, List.append_assoc, List.dropWhile_append_of_pos hbefore, List.dropWhile_append]
  split
  · rename_i h
    rw [List.dropWhile_eq_nil_iff.mpr hafter, stripWhile, List.isEmpty_iff.mp h]
  · exact hback _

theorem trim_padded {before core after : String} (hbefore : trim before = "")
    (hafter : trim after = "") : trim (before ++ core ++ after) = trim core := by
  rw [trim_eq_empty_iff] at hbefore hafter
  unfold trim
  rw [String.toList_append, String.toList_append, stripWhile_of_append hbefore hafter]

theorem stripWhile_map (f : β → α) (l : List β) :
    stripWhile p (l.map f) = (stripWhile (p ∘ f) l).map f := by
  simp only [stripWhile, dropEndWhile, List.dropWhile_map, ← List.map_reverse]

theorem not_blank_of_visible {c : Char} (hlow : 0x21 ≤ c.toNat) (hhigh : c.toNat ≤ 0x7E) :
    isBlank c = false := by
  unfold isBlank
  simp
  omega

end Text
end ForgeChores
