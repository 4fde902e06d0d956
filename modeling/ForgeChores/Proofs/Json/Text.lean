import Mathlib.Data.List.Infix
import ForgeChores.Json.Printer
import ForgeChores.Json.Written
import ForgeChores.Proofs.Text.Case
import ForgeChores.Proofs.Text.Search

/-!
# ForgeChores.Proofs.Json.Text

The text of a value, seen from what stands in the value.

* `Mentions`: a text stands in a value, as a string or as a name, at whatever depth.
* `Mentions.contains_text`: the text of the value then has every phrase of it, in the same letter
  case or another, as long as no character of the phrase is escaped.
* `text_ne_empty`: there is no value without a text; `parse?_of_blank`: and no value in a blank
  text.
-/

namespace ForgeChores
namespace Json

/-- `s` stands in the value, as a string or as the name of a member. -/
inductive Mentions (s : String) : Json → Prop where
  | string : Mentions s (.string s)
  | item {items : List Json} {v : Json} : v ∈ items → Mentions s v → Mentions s (.array items)
  | name {fields : List (String × Json)} {v : Json} : (s, v) ∈ fields → Mentions s (.members fields)
  | value {fields : List (String × Json)} {name : String} {v : Json} :
      (name, v) ∈ fields → Mentions s v → Mentions s (.members fields)

/-! ## Parts of a text -/

theorem chars_infix_itemChars {v : Json} {items : List Json} (h : v ∈ items) :
    chars v <:+: itemChars items := by
  induction items with
  | nil => cases h
  | cons item rest ih =>
    cases rest with
    | nil =>
      rw [List.mem_singleton] at h
      subst h
      simp [itemChars]
    | cons next more =>
      rw [itemChars]
      · rcases List.mem_cons.mp h with rfl | h
        · exact (List.prefix_append _ _).isInfix
        · exact (ih h).trans ((List.suffix_cons _ _).trans (List.suffix_append _ _)).isInfix
      · exact List.cons_ne_nil _ _

theorem member_infix_fieldChars {name : String} {v : Json} {fields : List (String × Json)}
    (h : (name, v) ∈ fields) : quote name ++ ':' :: chars v <:+: fieldChars fields := by
  induction fields with
  | nil => cases h
  | cons field rest ih =>
    obtain ⟨name', v'⟩ := field
    cases rest with
    | nil =>
      rw [List.mem_singleton] at h
      cases h
      simp [fieldChars]
    | cons next more =>
      rw [fieldChars]
      · rcases List.mem_cons.mp h with h | h
        · cases h
          exact (List.prefix_append _ _).isInfix
        · exact (ih h).trans ((List.suffix_cons _ _).trans (List.suffix_append _ _)).isInfix
      · exact List.cons_ne_nil _ _

theorem Mentions.quote_infix {s : String} {v : Json} (h : v.Mentions s) : quote s <:+: chars v := by
  induction h with
  | string => simp [chars]
  | item hitem _ ih =>
    rw [chars]
    exact ih.trans ((chars_infix_itemChars hitem).trans ⟨['['], [']'], by simp⟩)
  | name hfield =>
    rw [chars]
    have hname := (List.prefix_append (quote s) _).isInfix.trans (member_infix_fieldChars hfield)
    exact hname.trans ⟨['\x7b'], ['\x7d'], by simp⟩
  | value hfield _ ih =>
    rw [chars]
    have hvalue := ((List.suffix_cons _ _).trans (List.suffix_append _ _)).isInfix.trans
      (member_infix_fieldChars hfield)
    exact (ih.trans hvalue).trans ⟨['\x7b'], ['\x7d'], by simp⟩

/-! ## Phrases -/

/-- Stands in a string as it is. -/
def Plain (c : Char) : Prop := c ≠ '\x22' ∧ c ≠ '\\' ∧ 0x20 ≤ c.toNat

instance : DecidablePred Plain := fun _ => inferInstanceAs (Decidable (_ ∧ _ ∧ _))

theorem escape_of_plain {c : Char} (h : Plain c) : escape c = [c] := by
  obtain ⟨hquote, hbackslash, hvisible⟩ := h
  have hne : ∀ d : Char, d.toNat < 0x20 → c ≠ d := by
    rintro d hd rfl
    omega
  simp [escape, hquote, hbackslash, hne '\x08' (by decide), hne '\x0c' (by decide),
    hne '\n' (by decide), hne '\r' (by decide), hne '\t' (by decide), Nat.not_lt.mpr hvisible]

/-- Letter case does not matter, as letters are plain. -/
theorem plain_of_toLower {c : Char} (h : Plain c.toLower) : Plain c := by
  rcases Text.toLower_cases c with ⟨-, hsame⟩ | ⟨hlow, hhigh, -⟩
  · rwa [hsame] at h
  · refine ⟨?_, ?_, by omega⟩
    · rintro rfl
      exact absurd hlow (by decide)
    · rintro rfl
      exact absurd hhigh (by decide)

theorem infix_quote {part : List Char} {s : String} (hplain : ∀ c ∈ part, Plain c)
    (h : part <:+: s.toList) : part <:+: quote s := by
  have hpart : part.flatMap escape = part := by
    clear h
    induction part with
    | nil => rfl
    | cons c rest ih =>
      rw [List.flatMap_cons, escape_of_plain (hplain c List.mem_cons_self),
        ih fun d hd => hplain d (List.mem_cons_of_mem _ hd)]
      rfl
  have hinside : part <:+: s.toList.flatMap escape := by
    have := h.flatMap escape
    rwa [hpart] at this
  exact hinside.trans ⟨['\x22'], ['\x22'], by simp [quote]⟩

theorem Mentions.contains_text {s phrase : String} {v : Json} (h : v.Mentions s)
    (hplain : phrase.toList.all (fun c => decide (Plain c)) = true)
    (hs : Text.contains (Text.lower s) phrase = true) :
    Text.contains (Text.lower v.text) phrase = true := by
  rw [Text.contains_lower_iff] at hs ⊢
  obtain ⟨part, hpart, hlower⟩ := hs
  refine ⟨part, ?_, hlower⟩
  have hplain' : ∀ c ∈ part, Plain c := by
    intro c hc
    apply plain_of_toLower
    refine of_decide_eq_true (List.all_eq_true.mp hplain _ ?_)
    rw [← hlower]
    exact List.mem_map_of_mem hc
  rw [text, String.toList_ofList]
  exact (infix_quote hplain' hpart).trans h.quote_infix

/-! ## Values without a text, texts without a value -/

theorem realText_ne_empty (x : Float) : realText x ≠ "" := by
  unfold realText
  simp only
  split
  · simp
  · generalize (Decimal.shortest _).normalize = d
    -- there is a digit in each layout
    obtain ⟨c, rest, hdigits⟩ : ∃ c rest, (toString d.digits).toList = c :: rest :=
      List.exists_cons_of_ne_nil (by simp)
    rw [hdigits]
    intro h
    simp only [String.append_eq_empty_iff, String.ofList_eq_empty_iff] at h
    have hbody := h.2
    split at hbody
    · simp at hbody
    · split at hbody
      · simp at hbody
      · split at hbody
        · simp at hbody
        · split at hbody <;> simp_all

theorem Number.text_ne_empty (n : Number) : n.text ≠ "" := by
  cases n with
  | whole n =>
    cases n with
    | ofNat n => simp [Number.text, toString, Int.repr]
    | negSucc n => simp [Number.text, toString, Int.repr]
  | real x => exact realText_ne_empty x

theorem text_ne_empty (v : Json) : v.text ≠ "" := by
  have hchars : chars v ≠ [] := by
    cases v with
    | null => simp [chars]
    | bool b => cases b <;> simp [chars]
    | number n => simpa [chars] using n.text_ne_empty
    | string s => simp [chars, quote]
    | array items => simp [chars]
    | members fields => simp [chars]
  simpa [text] using hchars

/-- White space is skipped or refused, as every token begins with a visible character of ASCII. -/
theorem open?_of_blank {c : Char} (h : Text.isBlank c = true) :
    Lexer.open? c = some (.between, []) ∨ Lexer.open? c = none := by
  have hhidden : ¬ (0x21 ≤ c.toNat ∧ c.toNat ≤ 0x7E) := by
    rintro ⟨hlow, hhigh⟩
    rw [Text.not_blank_of_visible hlow hhigh] at h
    cases h
  have hne : ∀ d : Char, 0x21 ≤ d.toNat ∧ d.toNat ≤ 0x7E → c ≠ d := by
    rintro d hd rfl
    exact hhidden hd
  have hbetween : ∀ lo hi : Char, 0x21 ≤ lo.toNat → hi.toNat ≤ 0x7E →
      ¬ (lo ≤ c ∧ c ≤ hi) := by
    rintro lo hi hlo hhi ⟨hloc, hchi⟩
    have hlow : lo.toNat ≤ c.toNat := UInt32.le_iff_toNat_le.mp hloc
    have hhigh : c.toNat ≤ hi.toNat := UInt32.le_iff_toNat_le.mp hchi
    exact hhidden ⟨by omega, by omega⟩
  by_cases hspace : Lexer.isSpace c = true
  · left
    rw [Lexer.open?, if_pos hspace]
  · right
    have hdigit := hbetween '0' '9' (by decide) (by decide)
    have hletter := hbetween 'a' 'z' (by decide) (by decide)
    simp [Lexer.open?, hspace, Text.isDigit, Lexer.isLetter, hdigit, hletter, hne '[' (by decide),
      hne ']' (by decide), hne '\x7b' (by decide), hne '\x7d' (by decide), hne ':' (by decide),
      hne ',' (by decide), hne '\x22' (by decide), hne '-' (by decide)]

theorem parse?_of_blank {body : String} (h : ∀ c ∈ body.toList, Text.isBlank c = true) :
    parse? body = none := by
  have htokens : tokens? body.toList = none ∨ tokens? body.toList = some [] := by
    generalize body.toList = l at h
    unfold tokens?
    induction l with
    | nil => right; rfl
    | cons c rest ih =>
      have hstep : Lexer.step .between c = Lexer.open? c := rfl
      rcases open?_of_blank (h c List.mem_cons_self) with hopen | hopen
      · simp only [List.foldlM_cons, hstep, hopen] at ih ⊢
        exact ih fun d hd => h d (List.mem_cons_of_mem _ hd)
      · left
        simp [List.foldlM_cons, hstep, hopen]
  unfold parse? Written.parse?
  rcases htokens with htokens | htokens
  · rw [htokens]
    rfl
  · rw [htokens]
    rfl

end Json
end ForgeChores
