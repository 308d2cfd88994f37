import TestExplorer.CommandLine.Execution
import TestExplorer.CommandLine.Help
import TestExplorer.Ignore.Listing
import TestExplorer.Shell.Start
import TestExplorer.Toml.Parser

set_option autoImplicit false

namespace TestExplorer.CommandLine

def UsageError.completion (args : List String) (e : UsageError) : Completion :=
  match e with
  | .help => { out := helpText args }
  | .version => { out := versionLine }
  | .missingSubcommand => { exitCode := some 2, err := helpText [] }
  | _ => { exitCode := some 2, err := s!"error: {e.reason}\n\nFor more information, try '--help'.\n" }

def invoke (site : Site) (env : Environment) (args : List String) : Completion :=
  match Request.parse args with
  | .ok request => perform site env request
  | .error error => error.completion args

end TestExplorer.CommandLine
