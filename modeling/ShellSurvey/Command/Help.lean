/-!
# Fixed texts

What the program says about itself and its commands.
-/

namespace ShellSurvey.Command

/-- Lines, each with its line ending. -/
def lines (texts : List String) : String :=
  String.join (texts.map (· ++ "\n"))

/-- The version. -/
def versionText : String := "shellfacts, version 0.1.0\n"

/-- The help of the program. -/
def programHelp : String :=
  lines
    ["Usage: cli [OPTIONS] COMMAND [ARGS]...",
      "",
      "  shellfacts - semantic facts from shell scripts for convention linting.",
      "",
      "Options:",
      "  --version      Show the version and exit.",
      "  -v, --verbose  Enable debug logging",
      "  --help         Show this message and exit.",
      "",
      "Commands:",
      "  extract  Extract functions, parameters, exports and imports from shell..."]

/-- The help of the survey command. -/
def surveyHelp : String :=
  lines
    ["Usage: cli extract [OPTIONS] PATHS...",
      "",
      "  Extract functions, parameters, exports and imports from shell scripts.",
      "",
      "  PATHS are script files or directories to scan for *.sh, *.bash, *.zsh and",
      "  shell dotfiles.",
      "",
      "Options:",
      "  --json         Output as JSON",
      "  --config FILE  Config file (default: .shellfacts.yaml in the current",
      "                 directory)",
      "  --help         Show this message and exit."]

/-- What stands before an error in the use of the program. -/
def programUsage : String :=
  lines ["Usage: cli [OPTIONS] COMMAND [ARGS]...", "Try 'cli --help' for help.", ""]

/-- What stands before an error in the use of the survey command. -/
def surveyUsage : String :=
  lines ["Usage: cli extract [OPTIONS] PATHS...", "Try 'cli extract --help' for help.", ""]

/-- A line that tells an error. -/
def errorLine (message : String) : String :=
  "Error: " ++ message ++ "\n"

end ShellSurvey.Command
