import ForgeChores.Proofs.Url.Percent
import ForgeChores.Url.Host

/-!
# ForgeChores.Proofs.Url.Host

Hosts that are refused whatever else they hold: those with a control or a space at their end
(`parse_append_blank`). Unescaping cannot take it away, and nothing in front can make an escape of
it.
-/

namespace ForgeChores
namespace Percent

open Text (Bytes)

theorem decodeBytes_percent {h l : UInt8} {rest : Bytes}
    (hno : ∀ h' l', Text.digitValue? (Char.ofNat h.toNat) = some h' →
      Text.digitValue? (Char.ofNat l.toNat) = some l' →
      (decide (h' < 16) && decide (l' < 16)) = false) :
    decodeBytes (0x25 :: h :: l :: rest) = 0x25 :: decodeBytes (h :: l :: rest) := by
  rw [decodeBytes]
  split
  · rename_i h' l' hh hl
    rw [hno h' l' hh hl, if_neg Bool.false_ne_true]
  · rfl

/-- A byte that is no digit stays behind whatever stands in front of it. -/
theorem decodeBytes_append_plain {b : UInt8} (hb : b ≠ 0x25)
    (hdigit : Text.digitValue? (Char.ofNat b.toNat) = none) (bytes : Bytes) :
    decodeBytes (bytes ++ [b]) = decodeBytes bytes ++ [b] := by
  fun_induction decodeBytes bytes with
  | case1 h l rest h' l' hl hh hlt ih =>
    simp only [List.cons_append] at ih ⊢
    rw [decodeBytes, hl, hh]
    simp only [hlt, if_true, ih]
  | case2 h l rest h' l' hl hh hlt ih =>
    simp only [List.cons_append] at ih ⊢
    rw [decodeBytes_percent, ih]
    intro h'' l'' hh' hl'
    rw [hh] at hh'
    rw [hl] at hl'
    cases hh'
    cases hl'
    exact Bool.not_eq_true _ ▸ hlt
  | case3 h l rest hnone ih =>
    simp only [List.cons_append] at ih ⊢
    rw [decodeBytes_percent fun h' l' hh hl => (hnone h' l' hh hl).elim, ih]
  | case4 b' rest hshort ih =>
    rw [List.cons_append, List.cons_append, ← ih]
    by_cases hb' : b' = 0x25
    · subst hb'
      rcases rest with _ | ⟨h, _ | ⟨l, rest⟩⟩
      · rw [List.nil_append, decodeBytes.eq_2 _ _ fun _ _ _ _ h => by simp at h]
      · exact decodeBytes_percent fun _ _ _ hl => by
          rw [hdigit] at hl
          cases hl
      · exact (hshort h l rest rfl rfl).elim
    · exact decodeBytes_cons hb' _
  | case5 => exact decodeBytes_cons hb []

end Percent

namespace Host

variable {c : Char} {l : List Char}

/-- What a control or a space is to the reader of a host. -/
theorem blank_facts (h : c.toNat ≤ 0x20) :
    fold c = [c] ∧ isForbidden c = true ∧ UInt8.ofNat c.toNat ≠ 0x25 ∧
      Text.digitValue? (Char.ofNat (UInt8.ofNat c.toNat).toNat) = none := by
  have hall : ∀ n ≤ 0x20, fold (Char.ofNat n) = [Char.ofNat n] ∧
      isForbidden (Char.ofNat n) = true ∧ UInt8.ofNat n ≠ 0x25 ∧
      Text.digitValue? (Char.ofNat (UInt8.ofNat n).toNat) = none := by decide
  have hc := hall c.toNat h
  rwa [Char.ofNat_toNat] at hc

theorem domain?_of_mem (h : c.toNat ≤ 0x20) (hc : c ∈ l) : domain? l = none := by
  obtain ⟨hfold, hforbidden, -⟩ := blank_facts h
  have hmem : c ∈ l.flatMap fold :=
    List.mem_flatMap.mpr ⟨c, hc, by rw [hfold]; exact List.mem_singleton_self c⟩
  have hany : (l.flatMap fold).any isForbidden = true := List.any_eq_true.mpr ⟨c, hmem, hforbidden⟩
  unfold domain?
  simp only [hany, if_true]

theorem mem_of_decode? {s : String} (h : c.toNat ≤ 0x20)
    (hs : Text.Utf8.decode? (Percent.decode (String.ofList (l ++ [c]))) = some s) :
    c ∈ s.toList := by
  obtain ⟨-, -, hpercent, hdigit⟩ := blank_facts h
  have hbytes := Text.Utf8.encode_of_decode? hs
  rw [Percent.decode, Text.Utf8.encode_ofList, List.flatMap_append, List.flatMap_singleton,
    Text.Utf8.utf8EncodeChar_ascii (by omega),
    Percent.decodeBytes_append_plain hpercent hdigit] at hbytes
  refine Text.Utf8.mem_of_mem_encode (by omega) ?_
  rw [hbytes]
  exact List.mem_append_right _ (List.mem_singleton_self _)

theorem parse_append_blank (h : c.toNat ≤ 0x20) (l : List Char) :
    ∃ e, parse (l ++ [c]) = .error e := by
  unfold parse
  split
  · -- an address in brackets has to end with one
    rename_i rest htext
    have hlast : rest.getLast? ≠ some ']' := by
      intro hbracket
      have hend := congrArg List.getLast? htext
      rw [List.getLast?_concat, List.getLast?_cons, hbracket, Option.getD_some] at hend
      cases hend
      exact absurd h (by decide)
    exact ⟨_, if_neg (by simpa using hlast)⟩
  · have hnone : ((Text.Utf8.decode? (Percent.decode (String.ofList (l ++ [c])))).bind
        fun s => domain? s.toList) = none := by
      rw [Option.bind_eq_none_iff]
      intro s hs
      exact domain?_of_mem h (mem_of_decode? h hs)
    simp only [hnone]
    exact ⟨_, rfl⟩

end Host
end ForgeChores
