import ForgeChores.Text

/-!
# ForgeChores.Proofs.Text.Search

One text in another: `occursIn` finds exactly the parts of a list that stand together. In a text
in lower case stands what stands in the text itself in some letter case (`contains_lower_iff`).
-/

namespace ForgeChores
namespace Text

theorem occursIn_iff_isInfix {part text : List Char} :
    occursIn part text = true ↔ part <:+: text := by
  induction text with
  | nil => simp [occursIn]
  | cons c rest ih =>
    rw [occursIn, Bool.or_eq_true, ih, List.isPrefixOf_iff_prefix, List.infix_cons_iff]

theorem contains_iff_isInfix {text part : String} :
    contains text part = true ↔ part.toList <:+: text.toList := occursIn_iff_isInfix

theorem contains_lower_iff {text part : String} :
    contains (lower text) part = true ↔
      ∃ l, l <:+: text.toList ∧ l.map Char.toLower = part.toList := by
  rw [contains_iff_isInfix, lower, String.toList_ofList]
  constructor
  · rintro ⟨before, after, h⟩
    obtain ⟨l, after', hl, hbefore, -⟩ := List.map_eq_append_iff.mp h.symm
    obtain ⟨before', l', rfl, -, hpart⟩ := List.map_eq_append_iff.mp hbefore
    exact ⟨l', ⟨before', after', hl.symm⟩, hpart⟩
  · rintro ⟨l, hl, hpart⟩
    rw [← hpart]
    exact hl.map Char.toLower

end Text
end ForgeChores
