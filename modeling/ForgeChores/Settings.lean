import ForgeChores.Provider
import ForgeChores.Toml

/-!
# ForgeChores.Settings

What a settings file may say. Everything is optional; defaults belong to the registry.

A section is a table of known keys. Read from an array, its values stand in the order of its keys,
and what goes beyond them does not count.
-/

namespace ForgeChores

/-- The settings of one provider. -/
structure ProviderSettings where
  apiBase : Option String := none
  webBase : Option String := none
  /-- The organization, group or user that repositories belong to. -/
  org : Option String := none
  /-- The repository that is forked for each run. -/
  sourceRepo : Option String := none
  /-- The environment variable that holds the token. -/
  tokenEnv : Option String := none
  /-- The build secret to provision before forking. -/
  secretName : Option String := none
  /-- How many seconds a fork may take to become usable. -/
  forkReady : Option Nat := none
deriving DecidableEq

/-- How many seconds waits may take. -/
structure TimeoutSettings where
  branch : Option Nat := none
  status : Option Nat := none
  fork : Option Nat := none
deriving DecidableEq

structure Settings where
  gitHub : ProviderSettings := {}
  gitLab : ProviderSettings := {}
  forgejo : ProviderSettings := {}
  timeouts : TimeoutSettings := {}
deriving DecidableEq

namespace Settings

/-- The section of a provider. -/
def provider (s : Settings) : Provider → ProviderSettings
  | .gitHub => s.gitHub
  | .gitLab => s.gitLab
  | .forgejo => s.forgejo

end Settings

/-! ## Reading -/

namespace Toml.Value

def text? : Value → Option String
  | .string s => some s
  | _ => none

/-- A number of seconds. -/
def natural? : Value → Option Nat
  | .integer n => if 0 ≤ n then some n.toNat else none
  | _ => none

/-- Reads a section by giving its values to its keys. -/
def section? {α : Type} (keys : List String) (set : α → String → Value → Option α) (start : α) :
    Value → Option α
  | .table _ entries => entries.foldlM (fun a (key, v) => set a key v) start
  | .array items => (keys.zip items).foldlM (fun a (key, v) => set a key v) start
  | _ => none

end Toml.Value

namespace ProviderSettings

def keys : List String :=
  ["api_base", "web_base", "org", "source_repo", "token_env", "secret_name", "fork_ready"]

/-- Gives a key its value. -/
def set (s : ProviderSettings) (key : String) (v : Toml.Value) : Option ProviderSettings :=
  match key with
  | "api_base" => do return { s with apiBase := some (← v.text?) }
  | "web_base" => do return { s with webBase := some (← v.text?) }
  | "org" => do return { s with org := some (← v.text?) }
  | "source_repo" => do return { s with sourceRepo := some (← v.text?) }
  | "token_env" => do return { s with tokenEnv := some (← v.text?) }
  | "secret_name" => do return { s with secretName := some (← v.text?) }
  | "fork_ready" => do return { s with forkReady := some (← v.natural?) }
  | _ => none

def ofToml? (v : Toml.Value) : Option ProviderSettings := v.section? keys set {}

end ProviderSettings

namespace TimeoutSettings

def keys : List String := ["branch", "status", "fork"]

/-- Gives a key its value. -/
def set (s : TimeoutSettings) (key : String) (v : Toml.Value) : Option TimeoutSettings :=
  match key with
  | "branch" => do return { s with branch := some (← v.natural?) }
  | "status" => do return { s with status := some (← v.natural?) }
  | "fork" => do return { s with fork := some (← v.natural?) }
  | _ => none

def ofToml? (v : Toml.Value) : Option TimeoutSettings := v.section? keys set {}

end TimeoutSettings

namespace Settings

/-- Reads a section. -/
def set (s : Settings) (key : String) (v : Toml.Value) : Option Settings :=
  match key with
  | "github" => do return { s with gitHub := ← ProviderSettings.ofToml? v }
  | "gitlab" => do return { s with gitLab := ← ProviderSettings.ofToml? v }
  | "forgejo" => do return { s with forgejo := ← ProviderSettings.ofToml? v }
  | "timeouts" => do return { s with timeouts := ← TimeoutSettings.ofToml? v }
  | _ => none

/-- The settings that a document holds. -/
def ofToml? (entries : Toml.Entries) : Option Settings :=
  entries.foldlM (fun s (key, v) => s.set key v) {}

end Settings
end ForgeChores
