import Mathlib.Algebra.Group.Nat.Defs
import ForgeChores.Text

/-!
# ForgeChores.Proofs.Text.Hex

Numbers in a fixed count of hexadecimal digits.

There are always as many digits as asked for (`length_hexDigits`), all in lower case
(`isLowerHex_of_mem`). A number that has no more digits is told by them from every other one
(`eq_of_hexDigits`).
-/

namespace ForgeChores
namespace Text

def IsLowerHex (c : Char) : Prop := c ∈ "0123456789abcdef".toList

instance : DecidablePred IsLowerHex := fun _ => inferInstanceAs (Decidable (_ ∈ _))

theorem isLowerHex_lowerHexDigit : ∀ d < 16, IsLowerHex (lowerHexDigit d) := by decide

theorem eq_of_lowerHexDigit : ∀ d < 16, ∀ d' < 16, lowerHexDigit d = lowerHexDigit d' → d = d' := by
  decide

theorem length_hexDigits (width n : Nat) : (hexDigits width n).length = width := by
  induction width generalizing n with
  | zero => rfl
  | succ width ih => rw [hexDigits, List.length_append, ih, List.length_singleton]

theorem isLowerHex_of_mem {width n : Nat} {c : Char} (h : c ∈ hexDigits width n) : IsLowerHex c := by
  induction width generalizing n with
  | zero => cases h
  | succ width ih =>
    rw [hexDigits, List.mem_append, List.mem_singleton] at h
    rcases h with h | rfl
    · exact ih h
    · exact isLowerHex_lowerHexDigit _ (Nat.mod_lt n (by decide))

/-- By the digits, the last one first. -/
theorem eq_of_hexDigits {width n n' : Nat} (hn : n < 16 ^ width) (hn' : n' < 16 ^ width)
    (h : hexDigits width n = hexDigits width n') : n = n' := by
  induction width generalizing n n' with
  | zero => omega
  | succ width ih =>
    rw [hexDigits, hexDigits] at h
    obtain ⟨hfirst, hlast⟩ := List.append_inj' h rfl
    rw [Nat.pow_succ'] at hn hn'
    have hdiv : n / 16 = n' / 16 :=
      ih (Nat.div_lt_of_lt_mul hn) (Nat.div_lt_of_lt_mul hn') hfirst
    have hmod : n % 16 = n' % 16 :=
      eq_of_lowerHexDigit _ (Nat.mod_lt n (by decide)) _ (Nat.mod_lt n' (by decide))
        (List.singleton_inj.mp hlast)
    omega

end Text
end ForgeChores
