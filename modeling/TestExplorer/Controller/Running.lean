import TestExplorer.Controller.Activity

set_option autoImplicit false

namespace TestExplorer

def LaunchResult.notices : LaunchResult → List Notice
  | finished _ => []
  | failed failure => [.launchFailed failure]
  | panicked text => [.launcherPanicked text]

def runOne (item : WorkItem) : Activity Outcome := do
  let result ← hostStep (.launch item.invocation)
  logged result.notices
  pure result.outcome

def runItems (options : RunOptions) (flag : Flag) :
    List WorkItem → Session → Report → Activity (Session × Report)
  | [], session, report => pure (session, report)
  | item :: rest, session, report => do
    if ← stateStep (.isRaised flag) then
      pure (session, { report with cancelled := true })
    else
      let session := (session.start item.id).1
      hostStep (.notify (.started item))
      let outcome ← runOne item
      let (session, first) := session.finish item.id outcome
      if first then
        hostStep (.notify (.finished item outcome))
        if !outcome.isPassed && options.stopOnFailure then
          stateStep (.raise flag)
        runItems options flag rest session (report.record item outcome)
      else runItems options flag rest session report

def planned (scope : Scope) (options : RunOptions) : Activity (List WorkItem) := do
  let tree ← holding .tree (stateStep .readTree)
  logged (tree.unknownIn scope)
  pure (tree.plan scope options)

def runScope (scope : Scope) (options : RunOptions) (flag : Flag) : Activity Report := do
  let items ← planned scope options
  hostStep (.notify (.runStart items.length))
  let (session, report) ← runItems options flag items (.ofPlan items) {}
  let report := { report with notRun := session.unfinished }
  hostStep (.notify (.complete report))
  pure report

end TestExplorer
