import ScreenAtlas.Command.Request

/-!
# Help

The usage of each command, which is shown when it is misused, and its help.
-/
namespace ScreenAtlas.Command

/-- Lines with a break behind each. -/
def linesText (lines : List String) : String := String.join (lines.map (· ++ "\n"))

/-- The usage of a command. -/
def usageLines (program : String) : List String :=
  if program == analyzeLine.program then
    ["usage: screenflow analyze [-h] [-v] [-q] [--branch BRANCH] [--limit LIMIT]",
      "                          [--store STORE] [--json]",
      "                          [path]"]
  else if program == showLine.program then
    ["usage: screenflow show [-h] [-v] [-q] --store STORE analysis_id"]
  else ["usage: screenflow [-h] [-v] [-q] \x7banalyze,show\x7d ..."]

/-- What the operands and options of a command mean. -/
def meaningLines (program : String) : List String :=
  if program == analyzeLine.program then
    ["positional arguments:",
      "  path             Path to the repository root (defaults to current",
      "                   directory).",
      "",
      "options:",
      "  -h, --help       show this help message and exit",
      "  -v, --verbose    Increase log verbosity for troubleshooting.",
      "  -q, --quiet      Only log warnings and errors.",
      "  --branch BRANCH  Branch label recorded with the analysis.",
      "  --limit LIMIT    Override the maximum number of files analyzed.",
      "  --store STORE    Directory where the analysis record is written as JSON.",
      "  --json           Print the full analysis result as JSON."]
  else if program == showLine.program then
    ["positional arguments:",
      "  analysis_id    Identifier printed by `screenflow analyze`.",
      "",
      "options:",
      "  -h, --help     show this help message and exit",
      "  -v, --verbose  Increase log verbosity for troubleshooting.",
      "  -q, --quiet    Only log warnings and errors.",
      "  --store STORE  Directory holding stored analysis records."]
  else
    ["Recover screens, navigation and code flows from a frontend repository.",
      "",
      "positional arguments:",
      "  \x7banalyze,show\x7d",
      "    analyze       Analyze a local checkout and print its screens and flows.",
      "    show          Print a stored analysis record as JSON.",
      "",
      "options:",
      "  -h, --help      show this help message and exit",
      "  -v, --verbose   Increase log verbosity for troubleshooting.",
      "  -q, --quiet     Only log warnings and errors."]

/-- The help of a command. -/
def helpText (program : String) : String :=
  linesText (usageLines program ++ [""] ++ meaningLines program)

/-- What is said about a misuse. -/
def misuseText (program message : String) : String :=
  linesText (usageLines program ++ [program ++ ": error: " ++ message])

end ScreenAtlas.Command
