import ForgeChores.Settings.Overlay
import ForgeChores.Settings.Valid
import ForgeChores.Text.Utf8
import ForgeChores.Toml.Reader

/-!
# ForgeChores.Settings.Source

Where settings come from: a file, then the environment.

A file that is named has to be there. Otherwise the first of the standard places that holds
something is read, and if none does there are only the environment and the defaults. Whatever
comes out of it is validated.
-/

namespace ForgeChores

/-! ## Files -/

/-- Why a file cannot be read. -/
inductive FileFault where
  | missing
  | notDirectory
  | directory
  | notText
  /-- Anything else, with the system's text. -/
  | other (text : String)
deriving DecidableEq

def FileFault.text : FileFault → String
  | .missing => "No such file or directory (os error 2)"
  | .notDirectory => "Not a directory (os error 20)"
  | .directory => "Is a directory (os error 21)"
  | .notText => "stream did not contain valid UTF-8"
  | .other text => text

/-- What reading each path gives. -/
abbrev Files := String → Except FileFault Text.Bytes

namespace Files

/-- Whether a path leads to anything. -/
def isThere (files : Files) (path : String) : Bool :=
  match files path with
  | .error .missing => false
  | .error .notDirectory => false
  | _ => true

/-- The text in a file. -/
def text (files : Files) (path : String) : Except FileFault String := do
  match Text.Utf8.decode (← files path) with
  | .ok s => .ok s
  | .error _ => .error .notText

/-- A path below a directory. -/
def join (directory path : String) : String :=
  if directory.toList.getLast? = some '/' then directory ++ path else directory ++ "/" ++ path

end Files

namespace Settings

/-! ## Loading -/

/-- Why there are no settings. -/
inductive LoadError where
  | unreadable (path : String) (fault : FileFault)
  | malformed (path : String)
  | invalid (fault : Fault)
deriving DecidableEq

def LoadError.message : LoadError → String
  | .unreadable path fault => "failed to read config file '" ++ path ++ "': " ++ fault.text
  | .malformed path => "failed to parse config file '" ++ path ++ "': not settings written in TOML"
  | .invalid fault => "invalid config value: " ++ fault.message

/-- Names a file. -/
def fileVariable : String := "FORGEOPS_CONFIG"

/-- Names a directory of configurations. -/
def directoryVariable : String := "XDG_CONFIG_HOME"

/-- The standard places, in the order in which they are looked at. -/
def places (env : Environment) (home : Option String) : List String :=
  (env.value? fileVariable).toList ++
    ((env.value? directoryVariable).map fun d => Files.join d "forgeops/config.toml").toList ++
    (home.map fun d => Files.join d ".forgeops/config.toml").toList

/-- The settings in a file. -/
def read (files : Files) (path : String) : Except LoadError Settings :=
  match files.text path with
  | .error fault => .error (.unreadable path fault)
  | .ok text =>
    match (Toml.parse? text).bind ofToml? with
    | some s => .ok s
    | none => .error (.malformed path)

/-- The file that settings come from. -/
def source? (files : Files) (env : Environment) (home explicit : Option String) : Option String :=
  explicit.or ((places env home).find? files.isThere)

/-- Settings, and the file they come from if there is one. -/
def load (files : Files) (env : Environment) (home explicit : Option String) :
    Except LoadError (Settings × Option String) := do
  let source := source? files env home explicit
  let s ←
    match source with
    | some path => read files path
    | none => .ok {}
  let s := s.overlay env
  match s.validate with
  | .ok () => return (s, source)
  | .error fault => .error (.invalid fault)

end Settings
end ForgeChores
