import ViewLint.CommandLine.Arguments

/-!
# Help

## Main definitions

* `Topic.text`: the help on a topic.
* `versionText`: the name and the version.
-/

namespace ViewLint.CommandLine

/-- The name and the version. -/
def versionText : String :=
  "keyview 0.3.0\n"

namespace Topic

/-- The help on all of the program. -/
def overviewLines : List String :=
  ["keyview - Finds dictionary Select projections that should use .Keys/.Values",
    "",
    "Usage: keyview <COMMAND>",
    "",
    "Commands:",
    "  check  Report projections that have a built-in dictionary view. " ++
      "Exits with code 1 when anything is found",
    "  fix    Rewrite projections to the built-in dictionary view",
    "  help   Print this message or the help of the given subcommand(s)",
    "",
    "Options:",
    "  -h, --help     Print help",
    "  -V, --version  Print version",
    "",
    "CONFIGURATION FILE (.keyview.toml):",
    "  Create this file in your project root to set defaults.",
    "",
    "  [keyview]",
    "  # What to look for",
    "  transform_methods = [\"System.Linq.Enumerable.Select\"]",
    "  capabilities = [\"System.Collections.Generic.IDictionary\",",
    "                  \"System.Collections.Generic.IReadOnlyDictionary\"]",
    "  key_component = \"Key\"",
    "  value_component = \"Value\"",
    "",
    "  # Path filters",
    "  exclude_folders = [\"Migrations\"]",
    "  analyze_generated = true   # Also check *.g.cs / <auto-generated> files",
    "",
    "  # Semantic model (TOML), relative to this file",
    "  model = \"keyview.model.toml\""]

/-- The help on the paths of a command. -/
def pathLines : List String :=
  ["Arguments:",
    "  [PATHS]...  Paths to analyze (files or directories). " ++
      "When no paths are provided, defaults to the current directory"]

/-- The help on the options that all commands have. -/
def sharedOptionLines : List String :=
  ["Options:",
    "  -m, --model <MODEL>",
    "          Semantic model file (overrides `model` in .keyview.toml)",
    "      --exclude-folder <EXCLUDE_FOLDERS>",
    "          Folders to exclude from analysis",
    "      --json",
    "          Output raw JSON",
    "  -v, --verbose",
    "          Enable verbose output for debugging (debug-level logs on stderr)"]

/-- The help on the option that asks for help. -/
def helpOptionLines : List String :=
  ["  -h, --help",
    "          Print help"]

/-- The help on a command. -/
def commandLines : Command → List String
  | .check =>
    ["Report projections that have a built-in dictionary view. " ++
        "Exits with code 1 when anything is found",
      "",
      "Usage: keyview check [OPTIONS] [PATHS]...",
      ""] ++ pathLines ++ [""] ++ sharedOptionLines ++ helpOptionLines
  | .fix =>
    ["Rewrite projections to the built-in dictionary view",
      "",
      "Usage: keyview fix [OPTIONS] [PATHS]...",
      ""] ++ pathLines ++ [""] ++ sharedOptionLines ++
      ["      --dry-run",
        "          Show what would change without writing files"] ++ helpOptionLines

/-- The help on help. -/
def helpLines : List String :=
  ["Print this message or the help of the given subcommand(s)",
    "",
    "Usage: keyview help [COMMAND]...",
    "",
    "Arguments:",
    "  [COMMAND]...  Print help for the subcommand(s)"]

/-- The help on a topic, line by line. -/
def lines : Topic → List String
  | .overview => overviewLines
  | .command c => commandLines c
  | .help => helpLines

/-- The help on a topic. -/
def text (t : Topic) : String :=
  String.join (t.lines.map (· ++ "\n"))

end Topic

end ViewLint.CommandLine
