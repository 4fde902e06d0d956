import ForgeChores.Text

/-!
# ForgeChores.Proofs.Text.Number

Decimal numbers. What is read as a number is digits, perhaps behind a plus sign, and is read as
what they say (`natural?_eq_some_iff`).

Numbers read back: the digits of a number are neither white space nor signs, so trimming leaves
its text alone (`trim_repr`) and reading gives the number again (`natural?_repr`).
-/

namespace ForgeChores
namespace Text

theorem isDigit_bounds {c : Char} (h : c.isDigit = true) : 48 ≤ c.toNat ∧ c.toNat ≤ 57 := by
  simp only [Char.isDigit, Bool.and_eq_true, decide_eq_true_eq] at h
  exact ⟨UInt32.le_iff_toNat_le.mp h.1, UInt32.le_iff_toNat_le.mp h.2⟩

theorem digitValue?_of_isDigit {c : Char} (h : c.isDigit = true) :
    digitValue? c = some (c.toNat - '0'.toNat) := by
  have hle : ('0' ≤ c && c ≤ '9') = true := by
    simp only [Char.isDigit, Bool.and_eq_true, decide_eq_true_eq] at h ⊢
    exact h
  unfold digitValue?
  rw [if_pos hle]

theorem isBlank_of_isDigit {c : Char} (h : c.isDigit = true) : isBlank c = false := by
  obtain ⟨hlo, hhi⟩ := isDigit_bounds h
  unfold isBlank
  simp
  omega

/-! ## Reading -/

/-- Read onto a number that the digits before have made. -/
theorem foldl_digits {l : List Char} (h : ∀ c ∈ l, c.isDigit = true) (n : Nat) :
    l.foldl
      (fun acc c => do
        let n ← acc
        let d ← digitValue? c
        if d < 10 then some (n * 10 + d) else none)
      (some n) = some (Nat.ofDigitChars 10 l n) := by
  induction l generalizing n with
  | nil => simp
  | cons c rest ih =>
    have hc := h c List.mem_cons_self
    have hlt : c.toNat - '0'.toNat < 10 := by
      have := isDigit_bounds hc
      simp only [Char.reduceToNat]
      omega
    have hstep : (do
        let n ← some n
        let d ← digitValue? c
        if d < 10 then some (n * 10 + d) else none) = some (n * 10 + (c.toNat - '0'.toNat)) := by
      simp only [digitValue?_of_isDigit hc, Option.bind_eq_bind, Option.bind_some, if_pos hlt]
    rw [List.foldl_cons, hstep, ih fun c' hc' => h c' (List.mem_cons_of_mem _ hc'),
      Nat.ofDigitChars_cons, Nat.mul_comm n]

theorem isDigit_of_mem_repr {n : Nat} {c : Char} (h : c ∈ n.repr.toList) : c.isDigit = true := by
  rw [Nat.toList_repr] at h
  exact Nat.isDigit_of_mem_toDigits (by decide) (by decide) h

theorem readDigits_repr (n : Nat) : readDigits 10 n.repr.toList = some n := by
  have hne : n.repr.toList.isEmpty = false := by simp
  unfold readDigits
  rw [hne, foldl_digits fun c hc => isDigit_of_mem_repr hc]
  simp

/-- The digits of a number are read as that number, as far as it is below the bound. -/
theorem natural?_repr_eq (n bound : Nat) :
    natural? bound n.repr = if n < bound then some n else none := by
  unfold natural?
  have hsign : ∀ rest, n.repr.toList ≠ '+' :: rest := by
    intro rest hplus
    have hdigit : '+'.isDigit = true := isDigit_of_mem_repr (by rw [hplus]; exact List.mem_cons_self)
    exact absurd hdigit (by decide)
  split
  · rename_i rest hplus
    exact absurd hplus (hsign rest)
  · simp only [readDigits_repr, Option.bind_eq_bind, Option.bind_some]

theorem natural?_repr {n bound : Nat} (h : n < bound) : natural? bound n.repr = some n := by
  rw [natural?_repr_eq, if_pos h]

theorem natural?_repr_of_le {n bound : Nat} (h : bound ≤ n) : natural? bound n.repr = none := by
  rw [natural?_repr_eq, if_neg (Nat.not_lt.mpr h)]

/-! ## Numerals -/

/-- A text of decimal digits that say `n`, perhaps behind one plus sign. -/
def Numeral (s : String) (n : Nat) : Prop :=
  ∃ digits, (s.toList = digits ∨ s.toList = '+' :: digits) ∧ digits ≠ [] ∧
    (∀ c ∈ digits, c.isDigit = true) ∧ n = Nat.ofDigitChars 10 digits 0

theorem isDigit_of_digitValue? {c : Char} {d : Nat} (h : digitValue? c = some d) (hd : d < 10) :
    c.isDigit = true := by
  unfold digitValue? at h
  split at h
  · rename_i hle
    simp only [Char.isDigit, Bool.and_eq_true, decide_eq_true_eq] at hle ⊢
    exact hle
  · split at h
    · cases h
      omega
    · split at h
      · cases h
        omega
      · cases h

/-- Whatever was read before, only digits are read on. -/
theorem isDigit_of_foldl {l : List Char} {acc : Option Nat} {n : Nat}
    (h : l.foldl
      (fun acc c => do
        let n ← acc
        let d ← digitValue? c
        if d < 10 then some (n * 10 + d) else none)
      acc = some n) : acc.isSome = true ∧ ∀ c ∈ l, c.isDigit = true := by
  induction l generalizing acc with
  | nil => exact ⟨by rw [show acc = some n from h]; rfl, fun _ hc => absurd hc List.not_mem_nil⟩
  | cons c rest ih =>
    obtain ⟨hsome, hrest⟩ := ih h
    obtain ⟨m, hm⟩ := Option.isSome_iff_exists.mp hsome
    obtain ⟨before, hbefore, hstep⟩ := Option.bind_eq_some_iff.mp hm
    obtain ⟨d, hd, hlast⟩ := Option.bind_eq_some_iff.mp hstep
    refine ⟨by rw [hbefore]; rfl, fun c' hc' => ?_⟩
    rcases List.mem_cons.mp hc' with rfl | hc'
    · split at hlast
      · exact isDigit_of_digitValue? hd ‹_›
      · cases hlast
    · exact hrest c' hc'

theorem readDigits_eq_some_iff {l : List Char} {n : Nat} :
    readDigits 10 l = some n ↔
      l ≠ [] ∧ (∀ c ∈ l, c.isDigit = true) ∧ n = Nat.ofDigitChars 10 l 0 := by
  unfold readDigits
  cases l with
  | nil => simp
  | cons c rest =>
    simp only [List.isEmpty_cons, Bool.false_eq_true, if_false]
    constructor
    · intro h
      have hall := (isDigit_of_foldl h).2
      rw [foldl_digits hall] at h
      cases h
      exact ⟨List.cons_ne_nil c rest, hall, rfl⟩
    · rintro ⟨-, hall, rfl⟩
      exact foldl_digits hall 0

theorem readDigits_below_iff {bound n : Nat} {l : List Char} :
    ((readDigits 10 l).bind fun n => if n < bound then some n else none) = some n ↔
      (l ≠ [] ∧ (∀ c ∈ l, c.isDigit = true) ∧ n = Nat.ofDigitChars 10 l 0) ∧ n < bound := by
  rw [Option.bind_eq_some_iff, ← readDigits_eq_some_iff]
  constructor
  · rintro ⟨m, hm, h⟩
    split at h
    · cases h
      exact ⟨hm, ‹_›⟩
    · cases h
  · rintro ⟨hn, hbound⟩
    exact ⟨n, hn, if_pos hbound⟩

theorem natural?_eq_some_iff {bound n : Nat} {s : String} :
    natural? bound s = some n ↔ Numeral s n ∧ n < bound := by
  unfold natural?
  simp only [Option.bind_eq_bind]
  split
  · rename_i rest hplus
    rw [readDigits_below_iff]
    refine and_congr_left' ⟨fun h => ⟨rest, .inr hplus, h⟩, ?_⟩
    rintro ⟨digits, hsplit | hsplit, h⟩
    · have hmem : '+' ∈ digits := by
        rw [← hsplit, hplus]
        exact List.mem_cons_self
      exact absurd (h.2.1 '+' hmem) (by decide)
    · rw [hplus, List.cons.injEq] at hsplit
      exact hsplit.2 ▸ h
  · rename_i hno
    rw [readDigits_below_iff]
    refine and_congr_left' ⟨fun h => ⟨_, .inl rfl, h⟩, ?_⟩
    rintro ⟨digits, hsplit | hsplit, h⟩
    · exact hsplit ▸ h
    · exact absurd hsplit (hno digits)

/-! ## Trimming -/

theorem dropWhile_of_all_not {α : Type} {p : α → Bool} {l : List α} (h : ∀ a ∈ l, p a = false) :
    l.dropWhile p = l := by
  cases l with
  | nil => rfl
  | cons a rest => simp [h a List.mem_cons_self]

theorem trim_of_not_blank {s : String} (h : ∀ c ∈ s.toList, isBlank c = false) : trim s = s := by
  have hrev : ∀ c ∈ s.toList.reverse, isBlank c = false := by simpa using h
  unfold trim stripWhile dropEndWhile
  rw [dropWhile_of_all_not h, dropWhile_of_all_not hrev, List.reverse_reverse,
    String.ofList_toList]

theorem trim_repr (n : Nat) : trim n.repr = n.repr :=
  trim_of_not_blank fun _ hc => isBlank_of_isDigit (isDigit_of_mem_repr hc)

end Text
end ForgeChores
