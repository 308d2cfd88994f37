import TestExplorer.Run.Plan
import TestExplorer.Verdict

set_option autoImplicit false

namespace TestExplorer

inductive TestState where
  | queued
  | started
  | passed
  | failed
  deriving DecidableEq

namespace TestState

def isTerminal : TestState → Bool
  | queued => false
  | started => false
  | passed => true
  | failed => true

def ofOutcome (o : Outcome) : TestState :=
  if o.isPassed then passed else failed

def label : TestState → String
  | queued => "queued"
  | started => "started"
  | passed => "passed"
  | failed => "failed"

end TestState

structure Session where
  states : List (TestId × TestState)
  deriving DecidableEq

namespace Session

def ofPlan (items : List WorkItem) : Session :=
  ⟨items.map fun item => (item.id, .queued)⟩

def state? (s : Session) (id : TestId) : Option TestState :=
  (s.states.find? (·.1 = id)).map (·.2)

def moveFirst (id : TestId) (next : TestState) (allowed : TestState → Bool) :
    List (TestId × TestState) → Option (List (TestId × TestState))
  | [] => none
  | (known, state) :: rest =>
    if known = id then
      if allowed state then some ((known, next) :: rest) else none
    else (moveFirst id next allowed rest).map ((known, state) :: ·)

def transition (s : Session) (id : TestId) (next : TestState) (allowed : TestState → Bool) :
    Session × Bool :=
  match moveFirst id next allowed s.states with
  | some states => (⟨states⟩, true)
  | none => (s, false)

def start (s : Session) (id : TestId) : Session × Bool :=
  s.transition id .started (· == .queued)

def finish (s : Session) (id : TestId) (o : Outcome) : Session × Bool :=
  s.transition id (.ofOutcome o) (! ·.isTerminal)

def unfinished (s : Session) : Nat :=
  s.states.countP fun (_, state) => !state.isTerminal

end Session

end TestExplorer
