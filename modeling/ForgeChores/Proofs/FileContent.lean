import ForgeChores.FileContent
import ForgeChores.Proofs.Base64
import ForgeChores.Proofs.Text.Utf8

/-!
# ForgeChores.Proofs.FileContent

File bodies are read exactly as they are written: up to white space, the encoding of a text is what
is read as that text (`decode_own_encoding`). Every other body fails.
-/

namespace ForgeChores
namespace FileContent

theorem toList_encode (s : String) : (encode s).toList = Base64.encode (Text.Utf8.encode s) :=
  String.toList_ofList

theorem encode_injective : Function.Injective encode := by
  intro s s' h
  have hdigits := congrArg String.toList h
  rw [toList_encode, toList_encode] at hdigits
  exact Text.Utf8.encode_injective (Base64.encode_injective hdigits)

/-! ## White space -/

/-- The characters with the Unicode property `White_Space`, by their code points. -/
def whiteSpace : List Nat :=
  [0x9, 0xA, 0xB, 0xC, 0xD, 0x20, 0x85, 0xA0, 0x1680, 0x2000, 0x2001, 0x2002, 0x2003, 0x2004, 0x2005,
    0x2006, 0x2007, 0x2008, 0x2009, 0x200A, 0x2028, 0x2029, 0x202F, 0x205F, 0x3000]

theorem isBlank_iff {c : Char} : Text.isBlank c = true ↔ c.toNat ∈ whiteSpace := by
  simp only [Text.isBlank, whiteSpace, Bool.or_eq_true, Bool.and_eq_true, decide_eq_true_eq,
    beq_iff_eq, List.mem_cons, List.not_mem_nil, or_false]
  omega

theorem compact_eq (raw : String) :
    compact raw = raw.toList.filter fun c => c.toNat ∉ whiteSpace := by
  unfold compact
  refine List.filter_congr fun c _ => ?_
  rw [Bool.eq_iff_iff, Bool.not_eq_true', ← Bool.not_eq_true, isBlank_iff, decide_eq_true_eq]

theorem isBlank_of_mem_encode {bytes : Text.Bytes} {c : Char} (h : c ∈ Base64.encode bytes) :
    Text.isBlank c = false := by
  have hdigit : ∀ v < 64, Text.isBlank (Base64.alphabet.toList.getD v '=') = false := by
    decide +kernel
  obtain ⟨values, padding, hspelling⟩ := Base64.spells_encode bytes
  rw [hspelling.text_eq, List.mem_append, List.mem_map, List.mem_replicate] at h
  rcases h with ⟨v, hv, rfl⟩ | ⟨-, rfl⟩
  · exact hdigit v (hspelling.values_lt v hv)
  · decide

theorem compact_encode (s : String) : compact (encode s) = (encode s).toList := by
  unfold compact
  rw [List.filter_eq_self]
  intro c hc
  rw [toList_encode] at hc
  rw [isBlank_of_mem_encode hc]
  rfl

/-! ## Reading -/

theorem decode_eq_ok_iff {context raw s : String} :
    decode context raw = .ok s ↔ compact raw = (encode s).toList := by
  rw [toList_encode, eq_comm (a := compact raw), ← Base64.decode_eq_some_iff]
  unfold decode
  cases Base64.decode (compact raw) with
  | none => simp
  | some bytes =>
    simp only [Option.some.injEq]
    rw [eq_comm (a := bytes), ← Text.Utf8.decode_eq_ok_iff]
    cases Text.Utf8.decode bytes with
    | error fault => simp
    | ok s' => simp

/-- A body that is no text fails as an answer of the provider. -/
theorem decode_ok_or_provider (context raw : String) :
    (∃ s, decode context raw = .ok s) ∨
      ∃ m, decode context raw = .error (.provider context none m) := by
  unfold decode
  cases Base64.decode (compact raw) with
  | none => exact .inr ⟨_, rfl⟩
  | some bytes =>
    dsimp only
    cases Text.Utf8.decode bytes with
    | error fault => exact .inr ⟨_, rfl⟩
    | ok s => exact .inl ⟨s, rfl⟩

theorem decode_provider_iff {context raw : String} :
    (∃ m, decode context raw = .error (.provider context none m)) ↔
      ∀ s, compact raw ≠ (encode s).toList := by
  constructor
  · rintro ⟨m, hm⟩ s hs
    rw [decode_eq_ok_iff.mpr hs] at hm
    cases hm
  · intro hnone
    rcases decode_ok_or_provider context raw with ⟨s, hs⟩ | hfail
    · exact absurd (decode_eq_ok_iff.mp hs) (hnone s)
    · exact hfail

/-- A body is read as a text exactly if it is the encoding of that text but for white space. There is
one encoding of a text, that by the rules of the format, and it is that of no other text. -/
theorem decode_own_encoding (context raw : String) :
    (∀ s, decode context raw = .ok s ↔
      raw.toList.filter (fun c => c.toNat ∉ whiteSpace) = (encode s).toList) ∧
    (∀ s, decode context raw = .ok s ↔
      raw.toList.filter (fun c => c.toNat ∉ whiteSpace) =
        (encode s).toList.filter fun c => c.toNat ∉ whiteSpace) ∧
    ((∃ m, decode context raw = .error (.provider context none m)) ↔
      ∀ s, raw.toList.filter (fun c => c.toNat ∉ whiteSpace) ≠ (encode s).toList) ∧
    Function.Injective encode ∧
    ∀ s text, Base64.Spells text (Text.Utf8.encode s) ↔ text = (encode s).toList := by
  simp only [← compact_eq]
  refine ⟨fun s => decode_eq_ok_iff, fun s => ?_, decode_provider_iff, encode_injective,
    fun s text => ?_⟩
  · rw [compact_encode]
    exact decode_eq_ok_iff
  · rw [toList_encode]
    exact Base64.spells_iff

/-- An encoding that is broken into lines, as forges send it. -/
theorem decode_own_encoding_wrapped :
    decode "f" "aGVsbG8g\n d29y\tbGQ=\r\n" = .ok "hello world" :=
  ((decode_own_encoding "f" "aGVsbG8g\n d29y\tbGQ=\r\n").1 "hello world").mpr (by decide +kernel)

end FileContent
end ForgeChores
