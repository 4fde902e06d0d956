import Mathlib.Data.List.Forall2
import ForgeChores.Proofs.Text.Trim

/-!
# ForgeChores.Proofs.Text.Case

Lower case, in ASCII and beyond it.

White space stays as it is, so a text may as well be trimmed before (`trim_lower`).

`lower` leaves everything alone that is not an ASCII letter. A `LowerCasing` may go on to change the
other letters of the alphabets, as the standard has it: some become several characters, some depend
on where they stand. None of them becomes ASCII, but for the Kelvin sign, which becomes a `k`. So
whether a text is an ASCII name without a `k` in some letter case, all of them say alike
(`LowerCasing.fold_eq_iff`).
-/

namespace ForgeChores
namespace Text

def IsAscii (c : Char) : Prop := c.toNat < 0x80

instance : DecidablePred IsAscii := fun _ => inferInstanceAs (Decidable (_ < _))

def kelvinSign : Char := '\u212a'

/-- What one character may become. -/
inductive LowersTo : Char → List Char → Prop where
  | ascii {c : Char} : IsAscii c → LowersTo c [c.toLower]
  | beyond {c d : Char} {part : List Char} : ¬ IsAscii c → d ∈ part → ¬ IsAscii d → LowersTo c part
  | kelvin : LowersTo kelvinSign ['k']

/-- A way to put texts in lower case, one character after the other. -/
structure LowerCasing where
  fold : String → String
  spelled : ∀ s, ∃ parts, List.Forall₂ LowersTo s.toList parts ∧ (fold s).toList = parts.flatten

theorem isUpper_iff {c : Char} : c.isUpper = true ↔ 65 ≤ c.toNat ∧ c.toNat ≤ 90 := by
  refine decide_eq_true_iff.trans ?_
  exact and_congr UInt32.le_iff_toNat_le UInt32.le_iff_toNat_le

/-- By the bounds of the upper-case letters. -/
theorem toLower_cases (c : Char) :
    c.isUpper = false ∧ c.toLower = c ∨
      65 ≤ c.toNat ∧ c.toNat ≤ 90 ∧ c.toLower.toNat = c.toNat + 32 := by
  unfold Char.toLower
  split
  · rename_i h
    have hlow : 65 ≤ c.toNat := UInt32.le_iff_toNat_le.mp h.1
    have hhigh : c.toNat ≤ 90 := UInt32.le_iff_toNat_le.mp h.2
    refine .inr ⟨hlow, hhigh, ?_⟩
    show (c.val + 32).toNat = _
    rw [UInt32.toNat_add]
    show (c.toNat + 32) % 4294967296 = _
    omega
  · rename_i h
    exact .inl ⟨decide_eq_false h, rfl⟩

theorem isUpper_toLower (c : Char) : c.toLower.isUpper = false := by
  rcases toLower_cases c with ⟨hnot, hsame⟩ | ⟨hlow, hhigh, hnat⟩
  · rw [hsame, hnot]
  · rw [← Bool.not_eq_true, isUpper_iff]
    omega

theorem toLower_toLower (c : Char) : c.toLower.toLower = c.toLower := by
  rcases toLower_cases c.toLower with ⟨-, hsame⟩ | ⟨hlow, hhigh, -⟩
  · exact hsame
  · have hupper : c.toLower.isUpper = true := isUpper_iff.mpr ⟨hlow, hhigh⟩
    rw [isUpper_toLower] at hupper
    cases hupper

theorem toLower_of_not_ascii {c : Char} (h : ¬ IsAscii c) : c.toLower = c := by
  rcases toLower_cases c with ⟨-, hsame⟩ | ⟨-, hhigh, -⟩
  · exact hsame
  · unfold IsAscii at h
    omega

theorem isBlank_toLower (c : Char) : isBlank c.toLower = isBlank c := by
  rcases toLower_cases c with ⟨-, hsame⟩ | ⟨hlow, hhigh, hnat⟩
  · rw [hsame]
  · rw [not_blank_of_visible (c := c) (by omega) (by omega),
      not_blank_of_visible (by omega) (by omega)]

theorem trim_lower (s : String) : trim (lower s) = lower (trim s) := by
  have hblank : isBlank ∘ Char.toLower = isBlank := funext isBlank_toLower
  unfold trim lower
  rw [String.toList_ofList, String.toList_ofList, stripWhile_map, hblank]

/-- The mapping that knows ASCII letters only. -/
def LowerCasing.ascii : LowerCasing where
  fold := lower
  spelled s := by
    refine ⟨s.toList.map fun c => [c.toLower], ?_, ?_⟩
    · rw [List.forall₂_map_right_iff, List.forall₂_same]
      intro c _
      by_cases h : IsAscii c
      · exact .ascii h
      · exact .beyond h List.mem_cons_self (by rwa [toLower_of_not_ascii h])
    · rw [← List.flatMap_def, ← List.map_eq_flatMap, lower, String.toList_ofList]

/-- A name that can be told. -/
def IsName (l : List Char) : Prop := ∀ c ∈ l, IsAscii c ∧ c ≠ 'k'

-- by the characters of the name, and not by all that there are
instance : DecidablePred IsName := fun l => List.decidableBAll (fun c => IsAscii c ∧ c ≠ 'k') l

/-- By the parts that spell it: each of them is one ASCII letter or leads out of the name. -/
theorem flatten_eq_iff {l name : List Char} {parts : List (List Char)}
    (h : List.Forall₂ LowersTo l parts) (hname : IsName name) :
    parts.flatten = name ↔ l.map Char.toLower = name := by
  induction h generalizing name with
  | nil => rfl
  | @cons c part l parts hc _ ih =>
    rw [List.flatten_cons, List.map_cons]
    cases hc with
    | ascii hascii =>
      cases name with
      | nil => simp
      | cons d rest =>
        have hrest : IsName rest := fun e he => hname e (List.mem_cons_of_mem _ he)
        simp [ih hrest]
    | beyond hc hd hbeyond =>
      refine iff_of_false ?_ ?_
      · rintro rfl
        exact hbeyond (hname _ (List.mem_append_left _ hd)).1
      · rintro rfl
        rw [toLower_of_not_ascii hc] at hname
        exact hc (hname _ List.mem_cons_self).1
    | kelvin =>
      refine iff_of_false ?_ ?_
      · rintro rfl
        exact (hname 'k' List.mem_cons_self).2 rfl
      · rintro rfl
        exact absurd (hname _ List.mem_cons_self).1 (by decide)

theorem LowerCasing.fold_eq_iff (lc : LowerCasing) {s name : String} (hname : IsName name.toList) :
    lc.fold s = name ↔ lower s = name := by
  obtain ⟨parts, hparts, hfold⟩ := lc.spelled s
  rw [← String.toList_inj, hfold, flatten_eq_iff hparts hname, ← String.toList_inj, lower,
    String.toList_ofList]

theorem LowerCasing.fold_eq_empty_iff (lc : LowerCasing) {s : String} :
    lc.fold s = "" ↔ s = "" := by
  have hname : IsName "".toList := by decide
  rw [lc.fold_eq_iff hname]
  simp [lower]

end Text
end ForgeChores
