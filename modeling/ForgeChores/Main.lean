import ForgeChores.CommandLine.Help
import ForgeChores.CommandLine.Run

/-!
# ForgeChores.Main

The program: words, environment and files in, lines and an exit code out. Everything in between is
`CommandLine.Call`.

The program brings no network of its own. Its requests go unanswered, as they would on a machine
that is offline.
-/

namespace ForgeChores
namespace CommandLine

/-- The variables among `names` that are set. -/
def readVariables (names : List String) (env : Environment) : IO Environment :=
  names.foldlM
    (fun env name => do
      match ← IO.getEnv name with
      | some value => return env.insert name value
      | none => return env)
    env

/-- What the system says about a file. Its codes may come negated. -/
def faultOf : IO.Error → FileFault
  | .noFileOrDirectory _ _ _ => .missing
  | .inappropriateType path code details =>
    if code = 20 ∨ -code = 20 then .notDirectory
    else if code = 21 ∨ -code = 21 then .directory
    else .other (toString (IO.Error.inappropriateType path code details))
  | e => .other (toString e)

/-- Reads the file at a path. -/
def readFile (path : String) : IO (Except FileFault Text.Bytes) := do
  try
    let bytes ← IO.FS.readBinFile path
    return .ok bytes.data.toList
  catch e =>
    return .error (faultOf e)

/-- Reads the files at some paths. -/
def readFiles (paths : List String) : IO Files := do
  let found ← paths.mapM fun path => do
    return (path, ← readFile path)
  return fun path => (found.lookup path).getD (.error .missing)

/-- A server that cannot be reached. It stays so for more requests than any wait sends. -/
def offline : Exchange := ⟨List.replicate (Nat.pow 2 20) ⟨0, none⟩, #[]⟩

/-- Carries out a call and gives the exit code. -/
def perform (c : Call) : IO UInt32 := do
  let home ← IO.getEnv "HOME"
  let fixed := Registry.allowVariable :: Settings.fileVariable :: Settings.directoryVariable ::
    Settings.overlayVariables
  let env ← readVariables fixed Table.empty
  let files ← readFiles (c.config.toList ++ Settings.places env home)
  let tokens :=
    match c.registry files env home with
    | .ok r => r.configs.map (·.tokenEnv)
    | .error _ => []
  let env ← readVariables tokens env
  let done := c.run files env home (offline, [])
  for line in done.state.2 do
    IO.println line
  match done.result with
  | .ok () => return 0
  | .error f =>
    IO.eprint f.report
    return 1

end CommandLine
end ForgeChores

def main (args : List String) : IO UInt32 := do
  match ForgeChores.CommandLine.Call.read args with
  | .ok c => ForgeChores.CommandLine.perform c
  | .error e =>
    let text := ForgeChores.CommandLine.answerTo e
    if e.isRequest then IO.print text else IO.eprint text
    return UInt32.ofNat e.exitCode
