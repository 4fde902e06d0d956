import ForgeChores.Proofs.Activity
import ForgeChores.Proofs.Http.Connecting

/-!
# ForgeChores.Proofs.Forge.Connected

Clients that can be made. Their base URL takes segments. The public forges are among them; wherever
a run is shown, it is a run on one of these.
-/

namespace ForgeChores

/-- A client for some API base and some token. -/
def Client.Connected (c : Client) : Prop :=
  ∃ apiBase auth extraHeaders, Client.connect apiBase auth extraHeaders = .ok c

theorem Client.Connected.hasSegments {c : Client} (h : c.Connected) : c.base.hasSegments = true := by
  obtain ⟨apiBase, auth, extraHeaders, hconnect⟩ := h
  rw [connect_eq] at hconnect
  obtain ⟨base, hbase, hmade⟩ := except_bind_eq_ok.mp hconnect
  split at hmade
  · cases hmade
    exact hasSegments_of_readBase hbase
  · cases hmade

/-! ## The public forges -/

def publicGitHub : GitHub :=
  ⟨⟨⟨"https", some ⟨"", none, "api.github.com", none⟩, .segments [""], none, none⟩, .bearer "t",
    []⟩, "o", {}⟩

def publicGitLab : GitLab :=
  ⟨⟨⟨"https", some ⟨"", none, "gitlab.com", none⟩, .segments ["api", "v4"], none, none⟩,
    .privateToken "t", []⟩, "o", {}, GitLab.defaultRetryDelay⟩

def publicForgejo : Forgejo :=
  ⟨⟨⟨"https", some ⟨"", none, "codeberg.org", none⟩, .segments ["api", "v1"], none, none⟩,
    .token "t", []⟩, "o", {}⟩

theorem publicGitHub_connected : publicGitHub.api.Connected :=
  ⟨GitHub.defaultApiBase, .bearer "t", [], by rfl⟩

end ForgeChores
