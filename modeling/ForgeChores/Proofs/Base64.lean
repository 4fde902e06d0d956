import Mathlib.Algebra.Group.Nat.Defs
import Mathlib.Data.List.Basic
import ForgeChores.Base64

/-!
# ForgeChores.Proofs.Base64

Base64 by its rules, and its two directions.

`Spells` states the format without saying how it is written: digits of six bits, which are the bits
of the bytes and as few zeros after them as it takes, filled up to groups of four.

* `spells_iff`: what `encode` writes is the only text that spells the bytes.
* `decode_eq_some_iff`: what `decode` reads is what `encode` writes, and nothing else.
-/

namespace ForgeChores
namespace Base64

open Text (Bytes)

/-! ## Digits -/

theorem value?_digit {n : Nat} (h : n < 64) : value? (digit n) = some n := by
  have hall : ∀ n < 64, value? (digit n) = some n := by decide
  exact hall n h

theorem digit_ne_pad {n : Nat} (h : n < 64) : digit n ≠ '=' := by
  intro hpad
  have hvalue := value?_digit h
  rw [hpad] at hvalue
  cases hvalue

theorem ascii_of_value? {c : Char} {n : Nat} (h : value? c = some n) : c.toNat < 128 := by
  by_contra hc
  have hle : ∀ d : Char, d.toNat < 128 → ¬ c ≤ d := fun d hd hcd =>
    hc (Nat.lt_of_le_of_lt hcd hd)
  have hne : ∀ d : Char, d.toNat < 128 → c ≠ d := by
    rintro d hd rfl
    exact hc hd
  simp [value?, hle 'Z' (by decide), hle 'z' (by decide), hle '9' (by decide), hne '+' (by decide),
    hne '/' (by decide)] at h

theorem value?_eq_some_iff {c : Char} {n : Nat} :
    value? c = some n ↔ n < 64 ∧ c = digit n := by
  constructor
  · intro h
    have hall : ∀ code < 128, ∀ n ∈ value? (Char.ofNat code),
        n < 64 ∧ Char.ofNat code = digit n := by decide
    have hcode := hall c.toNat (ascii_of_value? h)
    rw [Char.ofNat_toNat] at hcode
    exact hcode n h
  · rintro ⟨hn, rfl⟩
    exact value?_digit hn

/-! ## Reading what was written -/

theorem ofNat_eq_of_toNat {n : Nat} {b : UInt8} (h : n = b.toNat) : UInt8.ofNat n = b := by
  rw [h, UInt8.ofNat_toNat]

theorem toNat_ofNat {n : Nat} (h : n < 256) : (UInt8.ofNat n).toNat = n := by
  rw [UInt8.toNat_ofNat', Nat.mod_eq_of_lt h]

theorem decode_two {p q : Nat} (hp : p < 64) (hq : q < 64) (hzero : q % 16 = 0) :
    decode [digit p, digit q, '=', '='] = some [UInt8.ofNat (p * 4 + q / 16)] := by
  rw [decode]
  simp only [value?_digit hp, value?_digit hq, hzero, beq_self_eq_true, if_true,
    Option.bind_eq_bind, Option.bind_some]

theorem decode_three {p q r : Nat} (hp : p < 64) (hq : q < 64) (hr : r < 64) (hzero : r % 4 = 0) :
    decode [digit p, digit q, digit r, '='] =
      some [UInt8.ofNat (p * 4 + q / 16), UInt8.ofNat (q % 16 * 16 + r / 4)] := by
  rw [decode]
  · simp only [value?_digit hp, value?_digit hq, value?_digit hr, hzero, beq_self_eq_true, if_true,
      Option.bind_eq_bind, Option.bind_some]
  · exact digit_ne_pad hr

theorem decode_four {p q r s : Nat} {rest : List Char} {bytes : Bytes} (hp : p < 64) (hq : q < 64)
    (hr : r < 64) (hs : s < 64) (hrest : decode rest = some bytes) :
    decode (digit p :: digit q :: digit r :: digit s :: rest) =
      some (UInt8.ofNat (p * 4 + q / 16) :: UInt8.ofNat (q % 16 * 16 + r / 4) ::
        UInt8.ofNat (r % 4 * 64 + s) :: bytes) := by
  rw [decode]
  · simp only [value?_digit hp, value?_digit hq, value?_digit hr, value?_digit hs, hrest,
      Option.bind_eq_bind, Option.bind_some]
  · exact fun _ hpad _ => digit_ne_pad hs hpad
  · exact fun hpad _ => digit_ne_pad hs hpad

theorem decode_encode (bytes : Bytes) : decode (encode bytes) = some bytes := by
  induction bytes using encode.induct with
  | case1 => rfl
  | case2 a =>
    have ha := a.toNat_lt
    rw [encode, decode_two (by omega) (by omega) (by omega)]
    rw [ofNat_eq_of_toNat (b := a) (by omega)]
  | case3 a b =>
    have ha := a.toNat_lt
    have hb := b.toNat_lt
    rw [encode, decode_three (by omega) (by omega) (by omega) (by omega)]
    rw [ofNat_eq_of_toNat (b := a) (by omega), ofNat_eq_of_toNat (b := b) (by omega)]
  | case4 a b c rest ih =>
    have ha := a.toNat_lt
    have hb := b.toNat_lt
    have hc := c.toNat_lt
    rw [encode, decode_four (by omega) (by omega) (by omega) (by omega) ih]
    rw [ofNat_eq_of_toNat (b := a) (by omega), ofNat_eq_of_toNat (b := b) (by omega),
      ofNat_eq_of_toNat (b := c) (by omega)]

/-! ## Writing what was read -/

theorem encode_two {p q : Nat} (hp : p < 64) (hq : q < 64) (hzero : q % 16 = 0) :
    encode [UInt8.ofNat (p * 4 + q / 16)] = [digit p, digit q, '=', '='] := by
  have hdigits : (p * 4 + q / 16) / 4 = p ∧ (p * 4 + q / 16) % 4 * 16 = q := by omega
  rw [encode, toNat_ofNat (by omega), hdigits.1, hdigits.2]

theorem encode_three {p q r : Nat} (hp : p < 64) (hq : q < 64) (hr : r < 64) (hzero : r % 4 = 0) :
    encode [UInt8.ofNat (p * 4 + q / 16), UInt8.ofNat (q % 16 * 16 + r / 4)] =
      [digit p, digit q, digit r, '='] := by
  have hfirst : (p * 4 + q / 16) / 4 = p := by omega
  have hsecond : (p * 4 + q / 16) % 4 * 16 + (q % 16 * 16 + r / 4) / 16 = q := by omega
  have hthird : (q % 16 * 16 + r / 4) % 16 * 4 = r := by omega
  rw [encode, toNat_ofNat (by omega), toNat_ofNat (by omega), hfirst, hsecond, hthird]

theorem encode_four {p q r s : Nat} {rest : Bytes} (hp : p < 64) (hq : q < 64) (hr : r < 64)
    (hs : s < 64) :
    encode (UInt8.ofNat (p * 4 + q / 16) :: UInt8.ofNat (q % 16 * 16 + r / 4) ::
      UInt8.ofNat (r % 4 * 64 + s) :: rest) =
      digit p :: digit q :: digit r :: digit s :: encode rest := by
  have hfirst : (p * 4 + q / 16) / 4 = p := by omega
  have hsecond : (p * 4 + q / 16) % 4 * 16 + (q % 16 * 16 + r / 4) / 16 = q := by omega
  have hthird : (q % 16 * 16 + r / 4) % 16 * 4 + (r % 4 * 64 + s) / 64 = r := by omega
  have hfourth : (r % 4 * 64 + s) % 64 = s := by omega
  rw [encode, toNat_ofNat (by omega), toNat_ofNat (by omega), toNat_ofNat (by omega), hfirst,
    hsecond, hthird, hfourth]

theorem encode_of_decode {text : List Char} {bytes : Bytes} (h : decode text = some bytes) :
    encode bytes = text := by
  induction text using decode.induct generalizing bytes with
  | case1 =>
    cases h
    rfl
  | case2 w x =>
    simp only [decode, Option.bind_eq_bind, Option.bind_eq_some_iff, value?_eq_some_iff] at h
    obtain ⟨p, ⟨hp, rfl⟩, q, ⟨hq, rfl⟩, h⟩ := h
    by_cases hzero : q % 16 = 0
    · rw [if_pos (beq_iff_eq.mpr hzero)] at h
      cases h
      exact encode_two hp hq hzero
    · rw [if_neg (by simpa using hzero)] at h
      cases h
  | case3 w x y hy =>
    rw [decode.eq_3 _ _ _ hy] at h
    simp only [Option.bind_eq_bind, Option.bind_eq_some_iff, value?_eq_some_iff] at h
    obtain ⟨p, ⟨hp, rfl⟩, q, ⟨hq, rfl⟩, r, ⟨hr, rfl⟩, h⟩ := h
    by_cases hzero : r % 4 = 0
    · rw [if_pos (beq_iff_eq.mpr hzero)] at h
      cases h
      exact encode_three hp hq hr hzero
    · rw [if_neg (by simpa using hzero)] at h
      cases h
  | case4 w x y z rest hpair hone ih =>
    rw [decode.eq_4 _ _ _ _ _ hpair hone] at h
    simp only [Option.bind_eq_bind, Option.bind_eq_some_iff, value?_eq_some_iff] at h
    obtain ⟨p, ⟨hp, rfl⟩, q, ⟨hq, rfl⟩, r, ⟨hr, rfl⟩, s, ⟨hs, rfl⟩, more, hmore, h⟩ := h
    cases h
    rw [encode_four hp hq hr hs, ih hmore]
  | case5 text hempty htwo hthree hfour =>
    rw [decode.eq_5 _ hempty htwo hthree hfour] at h
    cases h

theorem decode_eq_some_iff {text : List Char} {bytes : Bytes} :
    decode text = some bytes ↔ encode bytes = text :=
  ⟨encode_of_decode, fun h => h ▸ decode_encode bytes⟩

theorem encode_injective : Function.Injective encode := by
  intro bytes bytes' h
  have hread := congrArg decode h
  rw [decode_encode, decode_encode] at hread
  exact Option.some.inj hread

/-! ## The rules of the format -/

/-- The digits in the order of their values. -/
def alphabet : String := "ABCDEFGHIJKLMNOPQRSTUVWXYZabcdefghijklmnopqrstuvwxyz0123456789+/"

/-- The lowest `width` bits of a number, highest first. -/
def bits : (width : Nat) → (n : Nat) → List Bool
  | 0, _ => []
  | width + 1, n => bits width (n / 2) ++ [n % 2 == 1]

/-- A text by the values of its digits and how often it is padded. The digits hold the bits of the
bytes and then zeros only, two for each padding; with the padding they come in groups of four. -/
structure Spelling (text : List Char) (bytes : Bytes) (values : List Nat) (padding : Nat) : Prop where
  text_eq : text = values.map (fun v => alphabet.toList.getD v '=') ++ List.replicate padding '='
  values_lt : ∀ v ∈ values, v < 64
  bits_eq : values.flatMap (bits 6) =
    bytes.flatMap (fun b => bits 8 b.toNat) ++ List.replicate (2 * padding) false
  groups : (values.length + padding) % 4 = 0
  padding_le : padding ≤ 2

/-- The text spells the bytes by the rules of the format. -/
def Spells (text : List Char) (bytes : Bytes) : Prop :=
  ∃ values padding, Spelling text bytes values padding

theorem digit_eq {v : Nat} (h : v < 64) : digit v = alphabet.toList.getD v '=' := by
  have hall : ∀ v < 64, digit v = alphabet.toList.getD v '=' := by decide +kernel
  exact hall v h

@[simp] theorem length_bits (width n : Nat) : (bits width n).length = width := by
  induction width generalizing n with
  | zero => rfl
  | succ width ih => simp [bits, ih]

theorem bits_add (width low n : Nat) :
    bits (width + low) n = bits width (n / 2 ^ low) ++ bits low n := by
  induction low generalizing n with
  | zero => simp [bits]
  | succ low ih =>
    rw [← Nat.add_assoc, bits, bits, ih, List.append_assoc, Nat.div_div_eq_div_mul, Nat.pow_succ']

/-- What stands above the lowest bits does not matter. -/
theorem bits_eq_iff {width m n : Nat} :
    bits width m = bits width n ↔ m % 2 ^ width = n % 2 ^ width := by
  induction width generalizing m n with
  | zero => simp [bits, Nat.mod_one]
  | succ width ih =>
    have hsplit : ∀ k, k % 2 ^ (width + 1) = k % 2 + 2 * (k / 2 % 2 ^ width) := by
      intro k
      rw [Nat.pow_succ', Nat.mod_mul]
    rw [hsplit, hsplit, bits, bits]
    constructor
    · intro h
      obtain ⟨hhigh, hlow⟩ := List.append_inj' h rfl
      have hlast : m % 2 = 1 ↔ n % 2 = 1 := by
        rw [← beq_iff_eq, List.singleton_inj.mp hlow, beq_iff_eq]
      rw [ih.mp hhigh]
      omega
    · intro h
      have hlast : m % 2 = n % 2 := by omega
      have hrest : m / 2 % 2 ^ width = n / 2 % 2 ^ width := by omega
      rw [ih.mpr hrest, hlast]

/-! ## Written by the rules -/

/-! How the bits of a byte are shared among digits: six and two, four and four, two and six. -/

theorem bits_first {a y : Nat} (hy : y < 16) :
    bits 6 (a / 4) ++ bits 6 (a % 4 * 16 + y) = bits 8 a ++ bits 4 y := by
  have hbyte : bits 8 a = bits 6 (a / 4) ++ bits 2 a := bits_add 6 2 a
  have hdigit : bits 6 (a % 4 * 16 + y) = bits 2 ((a % 4 * 16 + y) / 16) ++ bits 4 (a % 4 * 16 + y) :=
    bits_add 2 4 _
  have hhigh : bits 2 ((a % 4 * 16 + y) / 16) = bits 2 a := bits_eq_iff.mpr (by omega)
  have hlow : bits 4 (a % 4 * 16 + y) = bits 4 y := bits_eq_iff.mpr (by omega)
  rw [hbyte, hdigit, hhigh, hlow, List.append_assoc]

theorem bits_second {b z : Nat} (hz : z < 4) :
    bits 4 (b / 16) ++ bits 6 (b % 16 * 4 + z) = bits 8 b ++ bits 2 z := by
  have hbyte : bits 8 b = bits 4 (b / 16) ++ bits 4 b := bits_add 4 4 b
  have hdigit : bits 6 (b % 16 * 4 + z) = bits 4 ((b % 16 * 4 + z) / 4) ++ bits 2 (b % 16 * 4 + z) :=
    bits_add 4 2 _
  have hhigh : bits 4 ((b % 16 * 4 + z) / 4) = bits 4 b := bits_eq_iff.mpr (by omega)
  have hlow : bits 2 (b % 16 * 4 + z) = bits 2 z := bits_eq_iff.mpr (by omega)
  rw [hbyte, hdigit, hhigh, hlow, List.append_assoc]

theorem bits_third (c : Nat) : bits 2 (c / 64) ++ bits 6 (c % 64) = bits 8 c := by
  have hbyte : bits 8 c = bits 2 (c / 64) ++ bits 6 c := bits_add 2 6 c
  have hlow : bits 6 (c % 64) = bits 6 c := bits_eq_iff.mpr (by omega)
  rw [hbyte, hlow]

theorem Spelling.group {text : List Char} {bytes : Bytes} {values : List Nat} {padding : Nat}
    (h : Spelling text bytes values padding) (a b c : UInt8) :
    Spelling
      (digit (a.toNat / 4) :: digit (a.toNat % 4 * 16 + b.toNat / 16) ::
        digit (b.toNat % 16 * 4 + c.toNat / 64) :: digit (c.toNat % 64) :: text)
      (a :: b :: c :: bytes)
      (a.toNat / 4 :: (a.toNat % 4 * 16 + b.toNat / 16) :: (b.toNat % 16 * 4 + c.toNat / 64) ::
        c.toNat % 64 :: values)
      padding := by
  have ha := a.toNat_lt
  have hb := b.toNat_lt
  have hc := c.toNat_lt
  refine ⟨?_, ?_, ?_, ?_, h.padding_le⟩
  · rw [digit_eq (by omega), digit_eq (by omega), digit_eq (by omega), digit_eq (by omega),
      h.text_eq]
    rfl
  · intro v hv
    simp only [List.mem_cons] at hv
    rcases hv with rfl | rfl | rfl | rfl | hv
    · omega
    · omega
    · omega
    · omega
    · exact h.values_lt v hv
  · simp only [List.flatMap_cons, h.bits_eq, ← List.append_assoc]
    rw [bits_first (by omega), List.append_assoc (bits 8 a.toNat), bits_second (by omega),
      ← List.append_assoc, List.append_assoc _ (bits 2 _), bits_third]
  · have hgroups := h.groups
    simp only [List.length_cons]
    omega

theorem spells_encode (bytes : Bytes) : Spells (encode bytes) bytes := by
  induction bytes using encode.induct with
  | case1 => exact ⟨[], 0, rfl, by simp, rfl, rfl, by decide⟩
  | case2 a =>
    have ha := a.toNat_lt
    refine ⟨[a.toNat / 4, a.toNat % 4 * 16], 2, ?_, ?_, ?_, by simp, by decide⟩
    · rw [encode, digit_eq (by omega), digit_eq (by omega)]
      rfl
    · simp only [List.mem_cons, List.not_mem_nil, or_false, forall_eq_or_imp, forall_eq]
      omega
    · simp only [List.flatMap_cons, List.flatMap_nil, List.append_nil]
      exact bits_first (y := 0) (by decide)
  | case3 a b =>
    have ha := a.toNat_lt
    have hb := b.toNat_lt
    refine ⟨[a.toNat / 4, a.toNat % 4 * 16 + b.toNat / 16, b.toNat % 16 * 4], 1, ?_, ?_, ?_,
      by simp, by decide⟩
    · rw [encode, digit_eq (by omega), digit_eq (by omega), digit_eq (by omega)]
      rfl
    · simp only [List.mem_cons, List.not_mem_nil, or_false, forall_eq_or_imp, forall_eq]
      omega
    · have hbits : bits 4 (b.toNat / 16) ++ bits 6 (b.toNat % 16 * 4 + 0) = _ :=
        bits_second (by decide)
      simp only [List.flatMap_cons, List.flatMap_nil, List.append_nil, ← List.append_assoc]
      rw [bits_first (by omega), List.append_assoc, List.append_assoc]
      exact congrArg _ hbits
  | case4 a b c rest ih =>
    obtain ⟨values, padding, h⟩ := ih
    exact ⟨_, padding, h.group a b c⟩

/-! ## The only spelling -/

/-- Digits of six bits are told apart by their bits. -/
theorem values_eq_of_bits {values values' : List Nat} (hlt : ∀ v ∈ values, v < 64)
    (hlt' : ∀ v ∈ values', v < 64) (h : values.flatMap (bits 6) = values'.flatMap (bits 6)) :
    values = values' := by
  induction values generalizing values' with
  | nil =>
    cases values' with
    | nil => rfl
    | cons v' rest' => cases h
  | cons v rest ih =>
    cases values' with
    | nil => cases h
    | cons v' rest' =>
      simp only [List.flatMap_cons] at h
      obtain ⟨hfirst, hrest⟩ := List.append_inj h (by simp)
      have hv := hlt v List.mem_cons_self
      have hv' := hlt' v' List.mem_cons_self
      have hmod := bits_eq_iff.mp hfirst
      obtain rfl : v = v' := by omega
      rw [ih (fun w hw => hlt w (List.mem_cons_of_mem _ hw))
        (fun w hw => hlt' w (List.mem_cons_of_mem _ hw)) hrest]

theorem length_flatMap_bits {α : Type} (width : Nat) (f : α → Nat) (l : List α) :
    (l.flatMap fun a => bits width (f a)).length = width * l.length := by
  induction l with
  | nil => rfl
  | cons a rest ih =>
    rw [List.flatMap_cons, List.length_append, length_bits, ih, List.length_cons, Nat.mul_succ,
      Nat.add_comm]

/-- How many digits and how much padding there is follows from the number of bytes. -/
theorem Spelling.six_mul {text : List Char} {bytes : Bytes} {values : List Nat} {padding : Nat}
    (h : Spelling text bytes values padding) :
    6 * values.length = 8 * bytes.length + 2 * padding := by
  have hlength := congrArg List.length h.bits_eq
  rw [List.length_append, List.length_replicate, length_flatMap_bits 8] at hlength
  rw [← length_flatMap_bits 6 id]
  exact hlength

theorem Spelling.unique {text text' : List Char} {bytes : Bytes} {values values' : List Nat}
    {padding padding' : Nat} (h : Spelling text bytes values padding)
    (h' : Spelling text' bytes values' padding') : text = text' := by
  have hpadding : padding = padding' := by
    have := h.six_mul
    have := h'.six_mul
    have := h.groups
    have := h'.groups
    have := h.padding_le
    have := h'.padding_le
    omega
  subst hpadding
  have hvalues : values = values' :=
    values_eq_of_bits h.values_lt h'.values_lt (h.bits_eq.trans h'.bits_eq.symm)
  rw [h.text_eq, h'.text_eq, hvalues]

theorem spells_iff {text : List Char} {bytes : Bytes} : Spells text bytes ↔ text = encode bytes := by
  constructor
  · rintro ⟨values, padding, h⟩
    obtain ⟨values', padding', h'⟩ := spells_encode bytes
    exact h.unique h'
  · rintro rfl
    exact spells_encode bytes

end Base64
end ForgeChores
