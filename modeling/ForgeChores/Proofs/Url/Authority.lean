import ForgeChores.Proofs.Url.Host
import ForgeChores.Url.Reader

/-!
# ForgeChores.Proofs.Url.Authority

What stands between the slashes and the path of a special URL, taken apart into user, host and
port (`readAuthority_special`).

An authority with a control or a space at its end is refused (`readAuthority_append_blank`): it is
the end of the host or of the port, and neither allows it.
-/

namespace ForgeChores
namespace Url

variable {scheme : String} {c : Char}

/-! ## Parts -/

/-- What stands behind the user information. -/
def afterUser (l : List Char) : List Char := ((Text.splitLast '@' l).map Prod.snd).getD l

/-- User name and password. -/
def userOf (l : List Char) : String × Option String :=
  ((Text.splitLast '@' l).map fun (user, _) => userinfo user).getD ("", none)

/-- Host and port of a special URL, which has to have a host. -/
def hostAndPort (scheme : String) (l : List Char) : Except UrlError (String × Option Nat) :=
  match splitPort l false with
  | ([], _) => .error .emptyHost
  | (hostText, none) => (Host.parse hostText).map fun host => (host, none)
  | (hostText, some portText) => do
    let host ← Host.parse hostText
    let port ← readPort scheme portText
    return (host, port)

theorem readAuthority_special (scheme : String) (l : List Char) :
    readAuthority scheme .special l =
      (hostAndPort scheme (afterUser l)).map fun (host, port) =>
        ⟨(userOf l).1, (userOf l).2, host, port⟩ := by
  have hother : (SchemeKind.special == SchemeKind.other) = false := rfl
  unfold readAuthority hostAndPort afterUser userOf
  by_cases hlone : Text.splitLast '@' l = some ([], [])
  · -- a lone `@` is refused before the host is looked at, as a missing host
    rw [hlone]
    rfl
  · rcases hsplit : Text.splitLast '@' l with _ | ⟨user, rest⟩
    case' some =>
      have hnothing : (some user == some [] && rest.isEmpty) = false := by
        refine Bool.eq_false_iff.mpr fun h => hlone ?_
        simp at h
        rw [hsplit, h.1, h.2]
      simp only [hnothing]
    all_goals
      simp only [Option.map_none, Option.map_some, Option.getD_none, Option.getD_some]
      rcases splitPort _ false with ⟨_ | ⟨c, host⟩, _ | port⟩
      · rfl
      · rfl
      · simp [hother]
        cases Host.parse (c :: host) <;> rfl
      · simp [hother]
        cases Host.parse (c :: host) with
        | error e => rfl
        | ok h =>
          simp [bind, Except.bind]
          cases readPort scheme port <;> rfl

/-! ## A blank at the end -/

theorem splitLast_append {sep : Char} (hc : c ≠ sep) (l : List Char) :
    Text.splitLast sep (l ++ [c]) = none ∨
      ∃ front rest, Text.splitLast sep (l ++ [c]) = some (front, rest ++ [c]) := by
  unfold Text.splitLast
  by_cases hsep : sep ∈ l ++ [c]
  · right
    rw [if_pos hsep]
    refine ⟨((l ++ [c]).reverse.dropWhile (· != sep)).tail.reverse,
      (l.reverse.takeWhile (· != sep)).reverse, ?_⟩
    simp [hc]
  · exact .inl (if_neg hsep)

theorem splitPort_append (hc : c ≠ ':') (l : List Char) (inside : Bool) :
    splitPort (l ++ [c]) inside = (l ++ [c], none) ∨
      ∃ host port, splitPort (l ++ [c]) inside = (host, some (port ++ [c])) := by
  induction l generalizing inside with
  | nil =>
    left
    simp [splitPort, hc]
  | cons d rest ih =>
    rw [List.cons_append, splitPort]
    by_cases hcolon : (d == ':' && !inside) = true
    · rw [if_pos hcolon]
      exact .inr ⟨[], rest, rfl⟩
    · rw [if_neg hcolon]
      rcases ih (if d == '[' then true else if d == ']' then false else inside) with
        h | ⟨host, port, h⟩
      · left
        simp only [h]
      · right
        exact ⟨d :: host, port, by simp only [h]⟩

theorem readPort_append_blank (h : c.toNat ≤ 0x20) (l : List Char) :
    readPort scheme (l ++ [c]) = .error .invalidPort := by
  have hlow : ¬ '0' ≤ c := fun hle =>
    absurd (Nat.le_trans (show '0'.toNat ≤ c.toNat from hle) h) (by decide)
  have hdigit : (l ++ [c]).all Text.isDigit = false := by simp [Text.isDigit, hlow]
  unfold readPort
  rw [hdigit]
  simp

theorem hostAndPort_append_blank (h : c.toNat ≤ 0x20) (l : List Char) :
    ∃ e, hostAndPort scheme (l ++ [c]) = .error e := by
  have hcolon : c ≠ ':' := by
    rintro rfl
    exact absurd h (by decide)
  unfold hostAndPort
  rcases splitPort_append hcolon l false with heq | ⟨host, port, heq⟩
  · obtain ⟨e, he⟩ := Host.parse_append_blank h l
    rw [heq]
    cases l with
    | nil => exact ⟨e, congrArg (Except.map fun host => (host, none)) he⟩
    | cons d rest => exact ⟨e, congrArg (Except.map fun host => (host, none)) he⟩
  · rw [heq]
    cases host with
    | nil => exact ⟨_, rfl⟩
    | cons d rest =>
      cases hhost : Host.parse (d :: rest) with
      | error e => exact ⟨e, by simp [hhost, bind, Except.bind]⟩
      | ok host =>
        exact ⟨.invalidPort, by simp [hhost, readPort_append_blank h port, bind, Except.bind]⟩

theorem readAuthority_append_blank (h : c.toNat ≤ 0x20) (l : List Char) :
    ∃ e, readAuthority scheme .special (l ++ [c]) = .error e := by
  have hat : c ≠ '@' := by
    rintro rfl
    exact absurd h (by decide)
  have hafter : ∃ rest, afterUser (l ++ [c]) = rest ++ [c] := by
    unfold afterUser
    rcases splitLast_append hat l with heq | ⟨_, rest, heq⟩
    · exact ⟨l, by rw [heq]; rfl⟩
    · exact ⟨rest, by rw [heq]; rfl⟩
  obtain ⟨rest, hrest⟩ := hafter
  obtain ⟨e, he⟩ : ∃ e, hostAndPort scheme (rest ++ [c]) = .error e :=
    hostAndPort_append_blank h rest
  exact ⟨e, by rw [readAuthority_special, hrest, he]; rfl⟩

end Url
end ForgeChores
