import ForgeChores.Proofs.Text.Trim
import ForgeChores.Proofs.Url.Authority

/-!
# ForgeChores.Proofs.Url.Trimmed

Slashes at the end of a text do not decide whether it is a URL of the web.

What is read of such a text is its authority, then a path, which can be extended whatever it is
(`parse_of_special`). Taking the slashes off uncovers blanks, which are dropped as the text's end
(`tidy_append`): either the authority stays as it was, or it ended in a blank before, and then the
text with its slashes was no URL (`authorityText_append`, `readAuthority_append_blank`).

* `parse_trimEnd` says that the text without the slashes is read, with the scheme that it begins
  with and the authority that it had.
-/

namespace ForgeChores
namespace Url

/-! ## Special URLs -/

/-- Whether a character separates in a special URL. -/
def isSeparator (c : Char) : Bool := c == '/' || c == '\\'

/-- Whether neither a query nor a fragment begins. -/
def goesOn (c : Char) : Bool := c != '?' && c != '#'

/-- What stands between the slashes after a special scheme and the path. -/
def authorityText (rest : List Char) : List Char :=
  ((splitTail rest).1.dropWhile isSeparator).takeWhile (!isSeparator ·)

theorem splitTail_fst (l : List Char) : (splitTail l).1 = l.takeWhile goesOn := by
  simp only [splitTail, List.takeWhile_takeWhile]
  refine congrArg (List.takeWhile · l) (funext fun c => ?_)
  by_cases hquery : c = '?' <;> by_cases hfragment : c = '#' <;> simp [goesOn, hquery, hfragment]

theorem readPath_eq_segments (kind : SchemeKind) (l : List Char) :
    ∃ parts, readPath kind l = .segments parts := by
  unfold readPath
  dsimp only
  split
  · exact ⟨_, rfl⟩
  · exact ⟨_, rfl⟩

/-- Nothing but the authority can be at fault in a special URL. -/
theorem parse_of_special {s scheme : String} {rest : List Char}
    (hs : splitScheme (clean s) = some (scheme, rest)) (hkind : schemeKind scheme = .special) :
    ∃ pathText parts query fragment, readPath .special pathText = .segments parts ∧ parse s =
      (readAuthority scheme .special (authorityText rest)).map fun a =>
        ⟨scheme, some a, .segments parts, query, fragment⟩ := by
  obtain ⟨parts, hparts⟩ := readPath_eq_segments .special
    (((splitTail rest).1.dropWhile isSeparator).dropWhile (!isSeparator ·))
  refine ⟨_, parts,
    (splitTail rest).2.1.map fun q => String.ofList (Percent.encode Percent.inSpecialQuery q),
    (splitTail rest).2.2.map fun f => String.ofList (Percent.encode Percent.inFragment f), hparts, ?_⟩
  unfold parse
  simp only [hs, hkind]
  rw [← hparts]
  show (readAuthority scheme .special (authorityText rest) >>= _) = _
  cases readAuthority scheme .special (authorityText rest) with
  | error e => rfl
  | ok a => rfl

/-! ## Blanks and slashes at the end -/

/-- Controls and spaces, which are dropped at the ends. -/
def isLow (c : Char) : Bool := c.toNat ≤ 0x20

/-- What is kept inside: no tab and no line break. -/
def isKept (c : Char) : Bool := c != '\t' && c != '\n' && c != '\r'

/-- What follows the colon of a scheme, as it is read. -/
def tidy (l : List Char) : List Char := (Text.dropEndWhile isLow l).filter isKept

/-- Without the slashes at the end, blanks at the end are not read either. -/
theorem tidy_append (l : List Char) :
    ∃ blanks slashes, tidy l = tidy (Text.dropEndWhile (· == '/') l) ++ (blanks ++ slashes) ∧
      (∀ c ∈ blanks, c.toNat ≤ 0x20) ∧ ∀ c ∈ slashes, c = '/' := by
  obtain ⟨slashes, hslashes, hall⟩ := Text.exists_dropped (· == '/') l
  have hall : ∀ c ∈ slashes, c = '/' := fun c hc => by simpa using hall c hc
  rcases List.eq_nil_or_concat slashes with rfl | ⟨front, c, rfl⟩
  · rw [List.append_nil] at hslashes
    exact ⟨[], [], by simp [hslashes], by simp, by simp⟩
  · obtain ⟨blanks, hblanks, hlow⟩ := Text.exists_dropped isLow (Text.dropEndWhile (· == '/') l)
    have hwhole : Text.dropEndWhile isLow l = l := by
      have hc : c = '/' := hall c (by simp)
      rw [← hslashes, List.concat_eq_append, ← List.append_assoc]
      exact Text.dropEndWhile_concat_of_not (by rw [hc]; rfl) _
    have hplain : (front.concat c).filter isKept = front.concat c := by
      refine List.filter_eq_self.mpr fun d hd => ?_
      rw [hall d hd]
      rfl
    refine ⟨blanks.filter isKept, front.concat c, ?_, ?_, hall⟩
    · rw [tidy, hwhole]
      conv_lhs => rw [← hslashes, ← hblanks]
      rw [List.filter_append, List.filter_append, hplain, List.append_assoc]
      rfl
    · intro d hd
      exact of_decide_eq_true (hlow d (List.mem_filter.mp hd).1)

theorem blank_goesOn {c : Char} (h : c.toNat ≤ 0x20) :
    isSeparator c = false ∧ goesOn c = true := by
  have hne : ∀ d : Char, 0x20 < d.toNat → c ≠ d := by
    rintro d hd rfl
    omega
  simp [isSeparator, goesOn, hne '/' (by decide), hne '\\' (by decide), hne '?' (by decide),
    hne '#' (by decide)]

/-- What is appended is only seen where nothing has ended the run before. -/
theorem takeWhile_append_cases {α : Type} (p : α → Bool) (l rest : List α) :
    ((∀ a ∈ l, p a = true) ∧ (l ++ rest).takeWhile p = l ++ rest.takeWhile p) ∨
      (l ++ rest).takeWhile p = l.takeWhile p := by
  by_cases h : ∀ a ∈ l, p a = true
  · exact .inl ⟨h, List.takeWhile_append_of_pos h⟩
  · right
    rw [List.takeWhile_append, if_neg]
    intro hlength
    have hall := (List.takeWhile_prefix p).eq_of_length hlength
    exact h fun a ha => List.mem_takeWhile_imp (hall.symm ▸ ha)

theorem authorityText_append (l : List Char) {blanks slashes : List Char}
    (hblanks : ∀ c ∈ blanks, c.toNat ≤ 0x20) (hslashes : ∀ c ∈ slashes, c = '/') :
    authorityText (l ++ (blanks ++ slashes)) = authorityText l ∨
      blanks ≠ [] ∧ ∃ front, authorityText (l ++ (blanks ++ slashes)) = front ++ blanks := by
  have hsep : ∀ c ∈ slashes, isSeparator c = true := by
    intro c hc
    rw [hslashes c hc]
    rfl
  have hgoes : ∀ c ∈ blanks ++ slashes, goesOn c = true := by
    intro c hc
    rcases List.mem_append.mp hc with hc | hc
    · exact (blank_goesOn (hblanks c hc)).2
    · rw [hslashes c hc]
      rfl
  have hstop : (blanks ++ slashes).takeWhile (!isSeparator ·) = blanks := by
    rw [List.takeWhile_append_of_pos fun c hc => by simp [(blank_goesOn (hblanks c hc)).1]]
    cases slashes with
    | nil => exact List.append_nil _
    | cons c rest => simp [hsep c List.mem_cons_self]
  unfold authorityText
  rw [splitTail_fst, splitTail_fst]
  rcases takeWhile_append_cases goesOn l (blanks ++ slashes) with ⟨hall, happend⟩ | hsame
  · rw [happend, List.takeWhile_eq_self_iff.mpr hgoes, List.takeWhile_eq_self_iff.mpr hall,
      List.dropWhile_append]
    by_cases hempty : (l.dropWhile isSeparator).isEmpty = true
    · -- nothing but separators so far: the authority begins with the blanks if there are any
      rw [if_pos hempty, List.isEmpty_iff.mp hempty]
      cases blanks with
      | nil =>
        left
        rw [List.nil_append, List.dropWhile_eq_nil_iff.mpr hsep]
      | cons c rest =>
        right
        have hc : ¬ isSeparator c = true := by
          rw [(blank_goesOn (hblanks c List.mem_cons_self)).1]
          exact Bool.false_ne_true
        rw [List.cons_append, List.dropWhile_cons_of_neg hc]
        exact ⟨List.cons_ne_nil _ _, [], hstop⟩
    · rw [if_neg hempty]
      rcases takeWhile_append_cases (!isSeparator ·) (l.dropWhile isSeparator)
          (blanks ++ slashes) with ⟨hall, happend⟩ | hsame
      · rw [happend, hstop]
        by_cases hnil : blanks = []
        · left
          rw [hnil, List.append_nil, List.takeWhile_eq_self_iff.mpr hall]
        · exact .inr ⟨hnil, _, rfl⟩
      · exact .inl hsame
  · rw [hsame]
    exact .inl rfl

/-! ## URLs of the web -/

def webSchemes : List String := ["http", "https"]

theorem schemeKind_web {scheme : String} (h : scheme ∈ webSchemes) :
    schemeKind scheme = .special := by
  revert scheme
  decide

theorem splitScheme_clean_web {s scheme : String} {l : List Char} (h : scheme ∈ webSchemes)
    (hs : s.toList = scheme.toList ++ ':' :: l) :
    splitScheme (clean s) = some (scheme, tidy l) := by
  have hfront : scheme.toList.filter isKept = scheme.toList ∧
      s.toList.dropWhile isLow = s.toList := by
    rw [hs]
    rcases List.mem_pair.mp h with rfl | rfl <;> exact ⟨rfl, rfl⟩
  have hclean : clean s = scheme.toList ++ ':' :: tidy l := by
    show (Text.dropEndWhile isLow (s.toList.dropWhile isLow)).filter isKept = _
    rw [hfront.2, hs, Text.dropEndWhile_append_cons (by decide), List.filter_append, hfront.1]
    rfl
  rw [hclean]
  rcases List.mem_pair.mp h with rfl | rfl <;> rfl

theorem parse_trimEnd {s scheme : String} {l : List Char} {u : Url} (h : scheme ∈ webSchemes)
    (hs : s.toList = scheme.toList ++ ':' :: l) (hu : parse s = .ok u) :
    ∃ v, parse (Text.trimEnd '/' s) = .ok v ∧ v.scheme = scheme ∧ v.authority = u.authority ∧
      v.hasSegments = true := by
  have htrimmed : (Text.trimEnd '/' s).toList =
      scheme.toList ++ ':' :: Text.dropEndWhile (· == '/') l := by
    rw [Text.toList_trimEnd, hs, Text.dropEndWhile_append_cons rfl]
  obtain ⟨_, _, _, _, -, hparse⟩ := parse_of_special (splitScheme_clean_web h hs) (schemeKind_web h)
  obtain ⟨_, _, _, _, -, hparse'⟩ :=
    parse_of_special (splitScheme_clean_web h htrimmed) (schemeKind_web h)
  obtain ⟨blanks, slashes, htidy, hblanks, hslashes⟩ := tidy_append l
  rw [hparse] at hu
  rw [hparse']
  rcases authorityText_append (tidy (Text.dropEndWhile (· == '/') l)) hblanks hslashes with
    hsame | ⟨hne, front, hfront⟩
  · rw [← htidy] at hsame
    rw [← hsame]
    cases ha : readAuthority scheme .special (authorityText (tidy l)) with
    | error e =>
      rw [ha] at hu
      cases hu
    | ok a =>
      rw [ha] at hu
      cases hu
      exact ⟨_, rfl, rfl, rfl, rfl⟩
  · obtain ⟨e, he⟩ : ∃ e, readAuthority scheme .special
        (front ++ blanks.dropLast ++ [blanks.getLast hne]) = .error e :=
      readAuthority_append_blank (hblanks _ (List.getLast_mem hne)) _
    rw [List.append_assoc, List.dropLast_append_getLast hne, ← hfront, ← htidy] at he
    rw [he] at hu
    cases hu

end Url
end ForgeChores
