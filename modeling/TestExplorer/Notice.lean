import TestExplorer.Failure
import TestExplorer.Text.Quoted

set_option autoImplicit false

namespace TestExplorer

inductive Notice where
  | malformed (warning : Warning)
  | reopened (line : Nat) (unit : String)
  | skippedUnit (unit : String) (error : TreeError)
  | duplicateTest (line : Nat) (test : String) (id : TestId)
  | skippedTest (test : String) (error : TreeError)
  | failed (error : EngineError)
  | skippedEntry (text : String)
  | unknownSuite (id : SuiteId)
  | unknownTest (id : TestId)
  | unknownItem (id : String)
  | launchFailed (failure : ProcessFailure)
  | launcherPanicked (text : String)
  | timeoutIgnored (value : String)
  | settingsRejected (text : String)
  | secondWorkspace
  deriving DecidableEq

def Notice.text : Notice → String
  | malformed warning => warning.message
  | reopened line unit =>
    s!"line {line + 1}: unit \x60{unit}\x60 is opened again; its tests join the earlier unit"
  | skippedUnit unit error => s!"skipping unit \x60{unit}\x60: {error.message}"
  | duplicateTest line test id =>
    s!"line {line + 1}: duplicate test \x60{test}\x60 registered as \x60{id.text}\x60"
  | skippedTest test error => s!"skipping test \x60{test}\x60: {error.message}"
  | failed error => error.message
  | skippedEntry text => s!"skipping entry: {text}"
  | unknownSuite id => s!"unknown suite \x60{id.text}\x60"
  | unknownTest id => s!"unknown test \x60{id.text}\x60"
  | unknownItem id => s!"unknown test item \x60{id}\x60"
  | launchFailed failure => failure.message
  | launcherPanicked text => s!"launcher task failed: {text}"
  | timeoutIgnored value =>
    "ignoring PROLOGTEST_TIMEOUT_SECS=" ++ Text.quoted value ++ ": not a number of seconds"
  | settingsRejected text => s!"{text}; using defaults"
  | secondWorkspace => "initialize received twice; keeping the first workspace"

end TestExplorer
