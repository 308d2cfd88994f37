import TestExplorer.CommandLine.Arguments
import TestExplorer.Version

set_option autoImplicit false

namespace TestExplorer.CommandLine

def versionLine : String :=
  s!"prologtest {version}\n"

def generalHelp : String :=
  "Discover and run plunit tests with SWI-Prolog

Usage: prologtest <COMMAND>

Commands:
  list  Discover and print suites and tests
  run   Run tests (pytest-style)
  help  Print this message or the help of the given subcommand(s)

Options:
  -h, --help     Print help
  -V, --version  Print version
"

def listHelp : String :=
  "Discover and print suites and tests

Usage: prologtest list [OPTIONS] [PATH]...

Arguments:
  [PATH]...  Files or directories to scan (default: current directory)

Options:
      --config <FILE>  Configuration file (default: prologtest.toml in the first path)
      --json           Print machine-readable JSON on stdout
  -h, --help           Print help
"

def runHelp : String :=
  "Run tests (pytest-style)

Usage: prologtest run [OPTIONS] [PATH]...

Arguments:
  [PATH]...  Files or directories to scan (default: current directory)

Options:
      --config <FILE>          Configuration file (default: prologtest.toml in the first path)
      --json                   Print machine-readable JSON on stdout
  -s, --suite <SUITE>          Only run this suite (repeatable)
  -t, --test <SUITE:TEST>      Only run this test, written as SUITE:TEST (repeatable)
  -k <KEYWORD>                 Filter tests by keyword
  -x, --exitfirst              Stop on first failure
  -v, --verbose                Verbose output
      --timeout <SECS>         Per-test timeout in seconds (0 disables it)
      --interpreter <PROGRAM>  Interpreter to run tests with
  -h, --help                   Print help
"

def helpHelp : String :=
  "Print this message or the help of the given subcommand(s)

Usage: prologtest help [COMMAND]...

Arguments:
  [COMMAND]...  Print help for the subcommand(s)
"

def helpOf (name : String) : String :=
  if name = "help" then helpHelp
  else match verb? name with
    | some .list => listHelp
    | some .run => runHelp
    | none => generalHelp

def helpText : List String → String
  | ["help"] => generalHelp
  | ["help", name] => helpOf name
  | name :: _ => helpOf name
  | [] => generalHelp

def UsageError.reason : UsageError → String
  | unknownArgument => "unexpected argument found"
  | invalidValue => "a value is required for an argument but none was supplied"
  | valueValidation => "invalid value for '--timeout <SECS>'"
  | tooManyValues => "unexpected value for an argument that takes none"
  | argumentConflict => "an argument cannot be used multiple times"
  | invalidSubcommand => "unrecognized subcommand"
  | missingSubcommand => "a subcommand is required but none was provided"
  | help => "help was asked for"
  | version => "the version was asked for"

end TestExplorer.CommandLine
