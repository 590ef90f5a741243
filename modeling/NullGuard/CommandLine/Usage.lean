import NullGuard.CommandLine.Options

/-!
What the command says about itself.
-/
namespace NullGuard.CommandLine

def program : String := "nullprune"

def versionText : String := s!"{program} 1.0\n"

def lines (l : List String) : String := String.join (l.map (· ++ "\n"))

def usage : String := lines [
  "usage: nullprune [-h] [--fix] [--json] [--max-depth MAX_DEPTH] [--quiet]",
  "                 [--verbose] [--version]",
  "                 PATH [PATH ...]"]

def helpText : String := usage ++ lines [
  "",
  "Find (and remove) redundant null-checks of method parameters in Java sources",
  "",
  "positional arguments:",
  "  PATH                  Java source files or directories",
  "",
  "options:",
  "  -h, --help            show this help message and exit",
  "  --fix                 Rewrite files in place, removing redundant checks",
  "  --json                Print findings as JSON",
  "  --max-depth MAX_DEPTH",
  "                        Recursion bound of the valuation (default: 30)",
  "  --quiet, -q           Only log warnings and errors",
  "  --verbose, -v         Log debugging output",
  "  --version             show program's version number and exit",
  "",
  "Examples:",
  "  # Report findings in a file",
  "  nullprune src/main/java/app/Program.java",
  "",
  "  # Rewrite every Java file below a directory",
  "  nullprune --fix src/main/java",
  "        "]

def UsageError.report (e : UsageError) : String :=
  usage ++ s!"{program}: error: {e.message}\n"

end NullGuard.CommandLine
