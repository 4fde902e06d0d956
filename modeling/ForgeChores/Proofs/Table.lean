import ForgeChores.Table

/-!
# ForgeChores.Proofs.Table

Tables beyond `get?`.

* A value that is looked up stands among the values (`mem_values_of_get?`). The converse needs that
  no key stands twice (`Keyed`), which holds of every table that is built by `insert`.
* Under one key the last `insert` is the only one that counts (`insert_insert`).
-/

namespace ForgeChores
namespace Table

variable {κ α : Type} [DecidableEq κ]

theorem contains_eq_true_iff {t : Table κ α} {k : κ} :
    t.contains k = true ↔ ∃ a, t.get? k = some a := by
  rw [contains, Option.isSome_iff_exists]

theorem contains_eq_false_iff {t : Table κ α} {k : κ} :
    t.contains k = false ↔ t.get? k = none := by
  rw [contains, Option.isSome_eq_false_iff, Option.isNone_iff_eq_none]

theorem get?_insert_of_ne {t : Table κ α} {k k' : κ} {a : α} (h : k ≠ k') :
    (t.insert k a).get? k' = t.get? k' := by
  rw [get?_insert, if_neg h]

theorem get?_erase_of_ne {t : Table κ α} {k k' : κ} (h : k ≠ k') :
    (t.erase k).get? k' = t.get? k' := by
  rw [get?_erase, if_neg h]

/-! ## Values -/

/-- No key stands twice. -/
def Keyed (t : Table κ α) : Prop := (t.entries.map Prod.fst).Nodup

omit [DecidableEq κ] in
theorem keyed_empty : (empty : Table κ α).Keyed := List.nodup_nil

theorem mem_keys_put {k k' : κ} {a : α} {l : List (κ × α)} :
    k' ∈ (put k a l).map Prod.fst ↔ k' = k ∨ k' ∈ l.map Prod.fst := by
  induction l with
  | nil => simp [put]
  | cons e rest ih =>
    obtain ⟨q, b⟩ := e
    by_cases hq : q = k
    · simp [put, hq]
    · simp only [put, if_neg hq, List.map_cons, List.mem_cons, ih]
      exact or_left_comm

theorem Keyed.insert {t : Table κ α} (h : t.Keyed) (k : κ) (a : α) : (t.insert k a).Keyed := by
  have hput : ∀ l : List (κ × α), (l.map Prod.fst).Nodup → ((put k a l).map Prod.fst).Nodup := by
    intro l
    induction l with
    | nil => simp [put]
    | cons e rest ih =>
      obtain ⟨q, b⟩ := e
      intro hl
      obtain ⟨hnot, hrest⟩ := List.nodup_cons.mp hl
      by_cases hq : q = k
      · subst hq
        simpa [put] using hl
      · simp only [put, if_neg hq, List.map_cons, List.nodup_cons, mem_keys_put, not_or]
        exact ⟨⟨hq, hnot⟩, ih hrest⟩
  exact hput t.entries h

theorem mem_of_find {k : κ} {a : α} {l : List (κ × α)} (h : find k l = some a) : (k, a) ∈ l := by
  induction l with
  | nil => cases h
  | cons e rest ih =>
    obtain ⟨q, b⟩ := e
    by_cases hq : q = k
    · simp only [find, if_pos hq, Option.some.injEq] at h
      simp [hq, h]
    · simp only [find, if_neg hq] at h
      exact List.mem_cons_of_mem _ (ih h)

theorem find_of_mem {k : κ} {a : α} {l : List (κ × α)} (hl : (l.map Prod.fst).Nodup)
    (h : (k, a) ∈ l) : find k l = some a := by
  induction l with
  | nil => cases h
  | cons e rest ih =>
    obtain ⟨q, b⟩ := e
    obtain ⟨hnot, hrest⟩ := List.nodup_cons.mp hl
    rcases List.mem_cons.mp h with heq | hmem
    · cases heq
      simp [find]
    · have hq : q ≠ k := by
        rintro rfl
        exact hnot (List.mem_map.mpr ⟨(q, a), hmem, rfl⟩)
      simp only [find, if_neg hq]
      exact ih hrest hmem

theorem mem_values_of_get? {t : Table κ α} {k : κ} {a : α} (h : t.get? k = some a) :
    a ∈ t.values := List.mem_map.mpr ⟨(k, a), mem_of_find h, rfl⟩

theorem Keyed.mem_values_iff {t : Table κ α} (h : t.Keyed) {a : α} :
    a ∈ t.values ↔ ∃ k, t.get? k = some a := by
  constructor
  · intro hmem
    obtain ⟨⟨k, b⟩, hb, rfl⟩ := List.mem_map.mp hmem
    exact ⟨k, find_of_mem h hb⟩
  · rintro ⟨k, hk⟩
    exact mem_values_of_get? hk

/-! ## Two changes under one key -/

theorem put_put (k : κ) (a b : α) (l : List (κ × α)) : put k b (put k a l) = put k b l := by
  induction l with
  | nil => simp [put]
  | cons e rest ih =>
    obtain ⟨q, c⟩ := e
    by_cases hq : q = k
    · simp [put, hq]
    · simp [put, hq, ih]

theorem insert_insert (t : Table κ α) (k : κ) (a b : α) :
    (t.insert k a).insert k b = t.insert k b := by
  simp only [insert, put_put]

end Table
end ForgeChores
