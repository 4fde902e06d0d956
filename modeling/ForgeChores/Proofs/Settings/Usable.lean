import ForgeChores.Proofs.Http.Connecting
import ForgeChores.Proofs.Settings.Accepted
import ForgeChores.Proofs.Settings.Precedence
import ForgeChores.Proofs.Url.Trimmed

/-!
# ForgeChores.Proofs.Settings.Usable

Accepted settings can be used. Validation reads a base as it is written and a client reads it
without the slashes at its end, so this rests on `Url.parse_trimEnd`; the bases that hold where the
settings are silent are accepted as well (`isHttpUrl_defaultApiBase`).
-/

namespace ForgeChores
namespace Settings

theorem exists_scheme_of_isHttpUrl {s : String} (h : isHttpUrl s = true) :
    ∃ scheme ∈ Url.webSchemes, ∃ rest u,
      s.toList = scheme.toList ++ ':' :: '/' :: '/' :: rest ∧ Url.parse s = .ok u := by
  simp only [isHttpUrl, Bool.and_eq_true, Bool.or_eq_true, List.isPrefixOf_iff_prefix] at h
  obtain ⟨hscheme, hparse⟩ := h
  obtain ⟨u, hu⟩ : ∃ u, Url.parse s = .ok u := by
    cases hs : Url.parse s with
    | error e =>
      rw [hs] at hparse
      cases hparse
    | ok u => exact ⟨u, rfl⟩
  rcases hscheme with ⟨rest, hrest⟩ | ⟨rest, hrest⟩
  · exact ⟨"https", by decide, rest, u, hrest.symm, hu⟩
  · exact ⟨"http", by decide, rest, u, hrest.symm, hu⟩

theorem readBase_of_isHttpUrl {s : String} (h : isHttpUrl s = true) :
    ∃ base, Client.readBase s = .ok base ∧ base.isHttp = true ∧ base.hasSegments = true := by
  obtain ⟨scheme, hscheme, _, _, hs, hu⟩ := exists_scheme_of_isHttpUrl h
  obtain ⟨base, hbase, hsame, -, hsegments⟩ := Url.parse_trimEnd hscheme hs hu
  refine ⟨base, by simp [Client.readBase, hbase, hsegments], ?_, hsegments⟩
  rcases List.mem_pair.mp hscheme with rfl | rfl <;> rw [Url.isHttp, hsame] <;> rfl

theorem isHttpUrl_defaultApiBase (p : Provider) : isHttpUrl p.defaultApiBase = true := by
  cases p <;> rfl

theorem Accepted.isHttpUrl_apiBase {s : Settings} (h : s.Accepted) (p : Provider) :
    isHttpUrl (ProviderConfig.ofSettings s p).apiBase = true := by
  show isHttpUrl ((s.provider p).apiBase.getD p.defaultApiBase) = true
  cases hbase : (s.provider p).apiBase with
  | none => exact isHttpUrl_defaultApiBase p
  | some url => exact (h.provider p).apiBase url hbase

/-- From accepted settings a forge can be reached with every token that a header can carry, and
nothing but another token is refused. -/
theorem connects_of_validate {s : Settings} (h : s.validate = .ok ()) (p : Provider) :
    ∃ c, (Registry.ofSettings s).config p = .ok c ∧
      (∀ token, HeaderText token → ∃ r, c.connect token = .ok r ∧ r.forge.provider = p ∧
        r.api.auth.secret = token ∧ r.api.base.isHttp = true ∧ r.api.base.hasSegments = true) ∧
      ∀ token e, c.connect token = .error e ↔ ¬ HeaderText token ∧ e = .badToken := by
  refine ⟨_, config_ofSettings s p, ?_⟩
  -- the base is read whatever the token, so that only the token can be at fault
  obtain ⟨base, hbase, hhttp, hsegments⟩ :=
    readBase_of_isHttpUrl ((validate_eq_ok_iff.mp h).isHttpUrl_apiBase p)
  have hconnect (token : String) : (ProviderConfig.ofSettings s p).connect token =
      if HeaderText token then
        .ok (p.remote base token (ProviderConfig.ofSettings s p).org
          (ProviderConfig.ofSettings s p).timeouts)
      else .error .badToken := by
    show p.connect token _ _ _ = _
    rw [Provider.connect_eq, hbase]
    rfl
  constructor
  · intro token htoken
    refine ⟨_, (hconnect token).trans (if_pos htoken), ?_⟩
    cases p <;> exact ⟨rfl, rfl, hhttp, hsegments⟩
  · intro token e
    rw [hconnect token]
    by_cases htoken : HeaderText token
    · simp [htoken]
    · simp [htoken, eq_comm]

/-- Everything that a base may hold, with slashes at the end of each part of it. -/
def awkward : Settings :=
  { gitHub := { apiBase := some "https://u:p@[::1]:8443/api/ /?q=/#//" }
    gitLab := { apiBase := some "http://EXAMPLE.org/\t//", forkReady := some 1 }
    forgejo := { apiBase := some "https:////git.example.org///" } }

theorem connects_of_validate_awkward :
    awkward.validate = .ok () ∧ HeaderText "a\tb" ∧ ¬ HeaderText "a\nb" ∧
      ∃ c r, (Registry.ofSettings awkward).config .gitHub = .ok c ∧
        c.connect "a\tb" = .ok r ∧ r.forge.provider = .gitHub ∧
        c.connect "a\nb" = .error .badToken := by
  have hvalid : awkward.validate = .ok () := by rfl
  have htab : HeaderText "a\tb" := by decide
  have hbreak : ¬ HeaderText "a\nb" := by decide
  obtain ⟨c, hc, hconnect, hrefused⟩ := connects_of_validate hvalid .gitHub
  obtain ⟨r, hr, hprovider, -⟩ := hconnect _ htab
  exact ⟨hvalid, htab, hbreak, c, r, hc, hr, hprovider, (hrefused _ _).mpr ⟨hbreak, rfl⟩⟩

end Settings
end ForgeChores
