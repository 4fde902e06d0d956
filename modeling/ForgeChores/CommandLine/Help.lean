import ForgeChores.CommandLine.Command

/-!
# ForgeChores.CommandLine.Help

What the program says about itself.
-/

namespace ForgeChores
namespace CommandLine

def programName : String := "forgeops"

def version : String := "0.3.0"

def about : String :=
  "Provider-agnostic SCM operations (GitHub, GitLab, Forgejo) for end-to-end test suites"

namespace Command.Kind

def about : Command.Kind → String
  | .providers => "List registered providers and whether each is enabled"
  | .branchExists => "Print whether a branch exists"
  | .deleteBranch => "Delete a branch (a missing branch is reported, not an error)"
  | .listPulls => "List open pull requests"
  | .cleanupWebhooks => "Delete the first webhook whose URL contains HOST"
  | .deleteRepository => "Delete a repository if it exists"
  | .status => "Wait for a CI status on a commit and print its final state"

/-- The positional arguments and what they are. -/
def arguments (k : Command.Kind) : List (String × String) :=
  let repo := ("<REPO>", "Repository as owner/name; a bare name uses the configured organization")
  match k with
  | .providers => []
  | .branchExists => [repo, ("<BRANCH>", "Branch name")]
  | .deleteBranch => [repo, ("<BRANCH>", "Branch name")]
  | .listPulls => [repo]
  | .cleanupWebhooks =>
    [repo, ("<HOST>", "Substring of the webhook URL, usually the cluster domain")]
  | .deleteRepository => [repo]
  | .status => [repo, ("<SHA>", "Commit SHA"), ("<NAME>", "Status name, or a substring of it")]

def examples : Command.Kind → List String
  | .providers =>
    ["    # Show every provider with its organization and token variable",
      "    forgeops providers",
      "",
      "    # Preview a selection without exporting E2E_GIT_PROVIDERS",
      "    forgeops providers --only gh,gl"]
  | .status =>
    ["    # Wait up to 10 minutes per phase for the build check on a commit",
      "    forgeops status -p gh octo-org/app 1a2b3c build-on-push",
      "",
      "    # Poll faster with a shorter deadline",
      "    forgeops status -p gl konflux-qe/app 1a2b3c build --interval 1 --timeout 120"]
  | _ => []

end Command.Kind

/-! ## Layout -/

/-- Rows in two columns. -/
def columns (rows : List (String × String)) : List String :=
  let width := (rows.map (·.1.length)).foldl max 0
  rows.map fun (left, right) => "  " ++ Text.padRight width left ++ "  " ++ right

/-- A part of a help text with its title; nothing if it is empty. -/
def titled (title : String) (lines : List String) : List String :=
  if lines.isEmpty then [] else "" :: (title ++ ":") :: lines

def debugRow : String × String := ("    --debug", "Enable debug logging")

def configRow : String × String :=
  ("    --config <PATH>",
    "Settings file (default: $FORGEOPS_CONFIG, then the standard locations)")

def providerRow : String × String :=
  ("-p, --provider <PROVIDER>", "Provider: gh, gl, fj (or github, gitlab, forgejo)")

def helpRow : String × String := ("-h, --help", "Print help")

/-- The options of a command; those of all commands stand among them. -/
def Command.Kind.optionRows : Command.Kind → List (String × String)
  | .providers =>
    [debugRow, ("    --only <PREFIXES>", "Allow-list to evaluate instead of E2E_GIT_PROVIDERS"),
      configRow, helpRow]
  | .status =>
    [debugRow, providerRow, configRow,
      ("    --timeout <SECS>", "Seconds to wait in each phase (appear, then complete)"),
      ("    --interval <SECS>", "Seconds between checks"), helpRow]
  | _ => [debugRow, providerRow, configRow, helpRow]

def Command.Kind.usage (k : Command.Kind) : String :=
  let provider := if k == .providers then "" else " --provider <PROVIDER>"
  "Usage: " ++ programName ++ " " ++ k.name ++ " [OPTIONS]" ++ provider ++
    String.join (k.arguments.map fun a => " " ++ a.1)

def Command.Kind.help (k : Command.Kind) : List String :=
  [k.about, "", k.usage] ++ titled "Arguments" (columns k.arguments) ++
    titled "Options" (columns k.optionRows) ++ titled "EXAMPLES" k.examples

def helpAbout : String := "Print this message or the help of the given subcommand(s)"

def programHelp : List String :=
  [about, "", "Usage: " ++ programName ++ " [OPTIONS] <COMMAND>"] ++
    titled "Commands"
      (columns (Command.Kind.all.map (fun k => (k.name, k.about)) ++ [(helpCommand, helpAbout)])) ++
    titled "Options"
      (columns [debugRow, configRow, helpRow, ("-V, --version", "Print version")])

def helpHelp : List String :=
  [helpAbout, "", "Usage: " ++ programName ++ " " ++ helpCommand ++ " [COMMAND]..."] ++
    titled "Arguments" (columns [("[COMMAND]...", "Print help for the subcommand(s)")])

/-- The help on a command. -/
def helpOn (command : String) : List String :=
  match Command.Kind.ofName? command with
  | some k => k.help
  | none => if command = helpCommand then helpHelp else programHelp

/-- What is printed when words make no call. -/
def answerTo : UsageError → String
  | .helpRequested command => "\n".intercalate (helpOn command) ++ "\n"
  | .versionRequested => programName ++ " " ++ version ++ "\n"
  | .nothingGiven => "\n".intercalate programHelp ++ "\n"
  | e =>
    let fault :=
      match e with
      | .missingCommand => "a command is missing"
      | .unknownCommand => "there is no such command"
      | .unknownArgument => "unexpected argument"
      | .missingArgument => "a required argument is missing"
      | .missingValue => "an option lacks its value"
      | .invalidValue => "an option has an invalid value"
      | .repeatedOption => "an option cannot be used multiple times"
      | _ => "a flag takes no value"
    "error: " ++ fault ++ "\n\nFor more information, try '--help'.\n"

end CommandLine
end ForgeChores
