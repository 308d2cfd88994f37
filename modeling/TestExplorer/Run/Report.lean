import TestExplorer.Run.Session

set_option autoImplicit false

namespace TestExplorer

structure TestResult where
  id : TestId
  suite : String
  name : String
  outcome : Outcome
  deriving DecidableEq

structure Report where
  passed : Nat := 0
  failed : Nat := 0
  failures : List String := []
  results : List TestResult := []
  cancelled : Bool := false
  notRun : Nat := 0
  deriving DecidableEq

namespace Report

def total (r : Report) : Nat :=
  r.passed + r.failed

def isSuccess (r : Report) : Bool :=
  r.failed == 0

def record (r : Report) (item : WorkItem) (outcome : Outcome) : Report :=
  let result : TestResult := { id := item.id, suite := item.suite, name := item.test, outcome }
  let r := { r with results := r.results ++ [result] }
  match outcome with
  | .passed => { r with passed := r.passed + 1 }
  | .failed message =>
    { r with
      failed := r.failed + 1
      failures := r.failures ++ [item.label ++ ": " ++ message] }

end Report

inductive RunEvent where
  | runStart (total : Nat)
  | started (item : WorkItem)
  | finished (item : WorkItem) (outcome : Outcome)
  | complete (report : Report)
  deriving DecidableEq

end TestExplorer
