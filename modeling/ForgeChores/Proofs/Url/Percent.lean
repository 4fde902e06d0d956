import ForgeChores.Proofs.Text.Utf8
import ForgeChores.Url.Percent

/-!
# ForgeChores.Proofs.Url.Percent

What is escaped for a path segment is read back as it was, and nothing in it separates.

* `decode_encode`: unescaping gives the bytes of the text, whatever else is escaped.
* `of_mem_encode`: what is escaped does not stand in what is written, separators in particular.
-/

namespace ForgeChores
namespace Percent

open Text (Bytes)
open Text.Utf8 (utf8EncodeChar_ascii)

/-- What may be escaped inside of a segment: the separators and whatever else, but not the digits of
an escape. -/
structure SegmentSet (escaped : Char → Bool) : Prop where
  covers : ∀ c, inSegment c = true → escaped c = true
  digits : ∀ n < 16, escaped (Text.upperHexDigit n) = false

theorem segmentSet_inSegment : SegmentSet inSegment := ⟨fun _ h => h, by decide⟩

theorem segmentSet_inSpecialSegment : SegmentSet inSpecialSegment := by
  refine ⟨fun c h => ?_, by decide⟩
  rw [inSpecialSegment, h, Bool.true_or]

variable {escaped : Char → Bool}

theorem SegmentSet.not_inSegment (h : SegmentSet escaped) {c : Char} (hc : escaped c = false) :
    inSegment c = false := by
  cases hin : inSegment c with
  | false => rfl
  | true =>
    rw [h.covers c hin] at hc
    cases hc

theorem ascii_of_not_inSegment {c : Char} (h : inSegment c = false) : c.toNat < 0x7F := by
  simp only [inSegment, inPath, inFragment, isControl, Bool.or_eq_false_iff,
    decide_eq_false_iff_not] at h
  omega

theorem ne_percent_of_not_inSegment {c : Char} (h : inSegment c = false) : c ≠ '%' := by
  rintro rfl
  cases h

/-! ## Bytes -/

theorem utf8EncodeChar_hexDigit {n : Nat} (h : n < 16) :
    String.utf8EncodeChar (Text.upperHexDigit n) = [UInt8.ofNat (Text.upperHexDigit n).toNat] := by
  have hall : ∀ n < 16, (Text.upperHexDigit n).toNat < 0x80 := by decide
  exact utf8EncodeChar_ascii (hall n h)

theorem digitValue?_hexDigit {n : Nat} (h : n < 16) :
    Text.digitValue? (Char.ofNat (UInt8.ofNat (Text.upperHexDigit n).toNat).toNat) = some n := by
  have hall : ∀ n < 16,
      Text.digitValue? (Char.ofNat (UInt8.ofNat (Text.upperHexDigit n).toNat).toNat) = some n := by
    decide
  exact hall n h

theorem decodeBytes_cons {b : UInt8} (h : b ≠ 0x25) (rest : Bytes) :
    decodeBytes (b :: rest) = b :: decodeBytes rest :=
  decodeBytes.eq_2 b rest fun _ _ _ hb _ => h hb

theorem decodeBytes_escapeByte (b : UInt8) (rest : Bytes) :
    decodeBytes ((escapeByte b).flatMap String.utf8EncodeChar ++ rest) = b :: decodeBytes rest := by
  have hb := b.toNat_lt
  have hhigh : b.toNat / 16 < 16 := by omega
  have hlow : b.toNat % 16 < 16 := by omega
  have hbyte : b.toNat / 16 * 16 + b.toNat % 16 = b.toNat := by omega
  have hpercent : String.utf8EncodeChar '%' = [0x25] := by decide
  simp only [escapeByte, List.flatMap_cons, List.flatMap_nil, hpercent,
    utf8EncodeChar_hexDigit hhigh, utf8EncodeChar_hexDigit hlow, List.cons_append, List.nil_append]
  rw [decodeBytes, digitValue?_hexDigit hhigh, digitValue?_hexDigit hlow]
  simp only [hhigh, hlow, decide_true, Bool.and_self, if_true]
  rw [hbyte, UInt8.ofNat_toNat]

theorem decodeBytes_escapeBytes (bytes rest : Bytes) :
    decodeBytes ((bytes.flatMap escapeByte).flatMap String.utf8EncodeChar ++ rest) =
      bytes ++ decodeBytes rest := by
  induction bytes with
  | nil => rfl
  | cons b bytes ih =>
    rw [List.flatMap_cons, List.flatMap_append, List.append_assoc, decodeBytes_escapeByte, ih]
    rfl

/-! ## Texts -/

theorem decodeBytes_encode (h : SegmentSet escaped) (l : List Char) :
    decodeBytes ((encode escaped l).flatMap String.utf8EncodeChar) =
      l.flatMap String.utf8EncodeChar := by
  unfold encode
  induction l with
  | nil => rfl
  | cons c rest ih =>
    rw [List.flatMap_cons, List.flatMap_append, List.flatMap_cons]
    cases hc : escaped c with
    | true =>
      rw [if_pos rfl, escapeChar, decodeBytes_escapeBytes, ih]
    | false =>
      -- a character that stays is one byte, and that is no percent sign
      have hin := h.not_inSegment hc
      have hascii := ascii_of_not_inSegment hin
      have hbyte : UInt8.ofNat c.toNat ≠ 0x25 := by
        intro hpercent
        have hnat := congrArg UInt8.toNat hpercent
        rw [UInt8.toNat_ofNat', Nat.mod_eq_of_lt (by omega)] at hnat
        exact ne_percent_of_not_inSegment hin (Char.toNat_inj.mp hnat)
      rw [if_neg Bool.false_ne_true, List.flatMap_singleton, utf8EncodeChar_ascii (by omega),
        List.singleton_append, decodeBytes_cons hbyte, ih]
      rfl

theorem decode_encode (h : SegmentSet escaped) (s : String) :
    decode (String.ofList (encode escaped s.toList)) = Text.Utf8.encode s := by
  unfold decode
  rw [Text.Utf8.encode_ofList, decodeBytes_encode h, ← Text.Utf8.encode_ofList, String.ofList_toList]

theorem encode_injective (h : SegmentSet escaped) {s s' : String}
    (hencode : encode escaped s.toList = encode escaped s'.toList) : s = s' := by
  refine Text.Utf8.encode_injective ?_
  rw [← decode_encode h s, hencode, decode_encode h s']

/-- What stands in what is written: what was there and need not be escaped, and escapes. -/
theorem mem_encode {l : List Char} {c : Char} (hc : c ∈ encode escaped l) :
    (c ∈ l ∧ escaped c = false) ∨ c = '%' ∨ ∃ n < 16, c = Text.upperHexDigit n := by
  obtain ⟨d, hdl, hd⟩ := List.mem_flatMap.mp hc
  cases hescaped : escaped d with
  | false =>
    rw [hescaped, if_neg Bool.false_ne_true, List.mem_singleton] at hd
    subst hd
    exact .inl ⟨hdl, hescaped⟩
  | true =>
    rw [hescaped, if_pos rfl, escapeChar, List.mem_flatMap] at hd
    obtain ⟨b, -, hb⟩ := hd
    have hlt := b.toNat_lt
    simp only [escapeByte, List.mem_cons, List.not_mem_nil, or_false] at hb
    rcases hb with rfl | rfl | rfl
    · exact .inr (.inl rfl)
    · exact .inr (.inr ⟨_, by omega, rfl⟩)
    · exact .inr (.inr ⟨_, by omega, rfl⟩)

/-- Nothing stands in what is written that would have to be escaped, but for the escapes. -/
theorem of_mem_encode (h : SegmentSet escaped) {l : List Char} {c : Char}
    (hc : c ∈ encode escaped l) : escaped c = false ∨ c = '%' := by
  rcases mem_encode hc with ⟨-, hescaped⟩ | hpercent | ⟨n, hn, rfl⟩
  · exact .inl hescaped
  · exact .inr hpercent
  · exact .inl (h.digits n hn)

end Percent
end ForgeChores
