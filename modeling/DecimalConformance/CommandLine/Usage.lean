import DecimalConformance.CommandLine

/-! What the command line says about itself, and about words that it does not follow. -/
namespace DecimalConformance.CommandLine

/-- The name of the program and its version. -/
def versionText : String := "dectest 0.1.0\n"

/-- The pattern of a call. -/
def callPattern : String := "Usage: dectest [OPTIONS] [FILES]..."

def usageText : String :=
  String.intercalate "\n" [
    "Conformance harness for decimal arithmetic test vectors",
    "",
    callPattern,
    "",
    "Arguments:",
    "  [FILES]...  Test files to run, in order",
    "",
    "Options:",
    "  -f, --file <FILE>                  Test file to run (processed before positional files)",
    "      --dialect <DIALECT>            Test-vector grammar: fixed or variable",
    "      --internal-precision <DIGITS>  Precision for parsing literals and intermediate results",
    "      --config <PATH>                Config file (default: ./dectest.yaml when present)",
    "      --json                         Output the report as JSON",
    "  -v, --verbose...                   Increase logging verbosity (-v, -vv, -vvv)",
    "  -q, --quiet                        Quiet mode (no logging except errors)",
    "      --log-file <PATH>              Write logs to this file instead of stderr",
    "  -h, --help                         Print help",
    "  -V, --version                      Print version",
    ""]

namespace Refusal

/-- What is wrong, in a few words; help and the version are no faults. -/
def reason : Refusal → String
  | unknownArgument => "unexpected argument found"
  | invalidValue => "a value is required but none was supplied"
  | valueValidation => "invalid value"
  | argumentConflict => "an argument cannot be used with another one or cannot be used multiple times"
  | tooManyValues => "unexpected value found; no more were expected"
  | displayHelp | displayVersion => ""

/-- Help and the version are asked for and shown as output; all else is an error. -/
def isRequest : Refusal → Bool
  | displayHelp | displayVersion => true
  | unknownArgument | invalidValue | valueValidation | argumentConflict | tooManyValues => false

def text : Refusal → String
  | displayHelp => usageText
  | displayVersion => versionText
  | refusal =>
    s!"error: {refusal.reason}\n\n{callPattern}\n\nFor more information, try '--help'.\n"

end Refusal
end DecimalConformance.CommandLine
