import Mathlib.Logic.Function.Basic
import TestExplorer.Controller.Requests

/-!
Requests that are under way together. One of them at a time takes its next step, and any of them may
be next, except where it waits for a lock that somebody holds. The host answers as it likes, a launch
takes time, and flags may be raised at any moment. The tree is read in one step, so readers need not
share its lock.
-/

set_option autoImplicit false

namespace TestExplorer

inductive Task where
  | run (scope : Scope) (options : RunOptions) (flag : Flag)
  | cancel
  | resolve (id : Option String)
  | reload
  | changed (path : Path)
  | edited (path : Path) (source : String)
  | dispose

namespace Task

inductive Reply where
  | report (result : Except EngineError Report)
  | cancelled (active : Bool)
  | nodes (result : Except EngineError (List Node))
  | summary (result : Except EngineError Summary)
  | found (result : Except EngineError (Option Found))
  | disposed

def activity (c : Controller) : Task → Activity Reply
  | run scope options flag => .report <$> c.run scope options flag
  | cancel => .cancelled <$> Controller.cancel
  | resolve id => .nodes <$> c.resolve id
  | reload => .summary <$> c.reload
  | changed path => .found <$> c.documentChanged path
  | edited path source => .found <$> c.documentEdited path source
  | dispose => (fun _ => .disposed) <$> Controller.dispose

def flag? : Task → Option Flag
  | run _ _ flag => some flag
  | _ => none

end Task

def HostAction.invocation? : HostAction → Option Invocation
  | launch invocation => some invocation
  | _ => none

/-- What is seen of a step. A launch is seen when it begins and again when it ends. -/
inductive Act where
  | state (action : StateAction) (answer : action.Answer)
  | host (action : HostAction) (answer : action.Answer)
  | began (invocation : Invocation)

namespace Act

variable {ι : Type}

def isBeginning : Act → Bool
  | began _ => true
  | _ => false

def event? : Act → Option RunEvent
  | host (.notify event) _ => some event
  | _ => none

def engine (e : Engine) : Act → Engine
  | state action _ => (e.perform action).2
  | _ => e

def holder (i : ι) (holder : Lock → Option ι) : Act → Lock → Option ι
  | state (.acquire lock) _ => Function.update holder lock (some i)
  | state (.release lock) _ => Function.update holder lock none
  | _ => holder

end Act

abbrev Answers := (action : HostAction) → action.Answer

structure Scene (ι : Type) where
  engine : Engine
  holder : Lock → Option ι := fun _ => none
  rest : ι → Activity Task.Reply
  inFlight : ι → Bool := fun _ => false
  log : List (ι × Act) := []

inductive Move (ι : Type) where
  | turn (i : ι) (answers : Answers)
  | raise (flag : Flag)

namespace Scene

variable {ι : Type}

def start (c : Controller) (tasks : ι → Task) (engine : Engine) : Scene ι :=
  { engine, rest := fun i => (tasks i).activity c }

def isFree (s : Scene ι) : StateAction → Bool
  | .acquire lock => (s.holder lock).isNone
  | _ => true

/-- The next step of a request and what is left of it, unless it is done or has to wait. -/
def next (s : Scene ι) (i : ι) (answers : Answers) : Option (Act × Activity Task.Reply) :=
  match s.rest i with
  | .done _ => none
  | .state action next =>
    if s.isFree action then
      let answer := (s.engine.perform action).1
      some (.state action answer, next answer)
    else none
  | .host action next =>
    match action.invocation?, s.inFlight i with
    | some invocation, false => some (.began invocation, .host action next)
    | _, _ => some (.host action (answers action), next (answers action))

variable [DecidableEq ι]

def take (s : Scene ι) (i : ι) (act : Act) (rest : Activity Task.Reply) : Scene ι where
  engine := act.engine s.engine
  holder := act.holder i s.holder
  rest := Function.update s.rest i rest
  inFlight := Function.update s.inFlight i act.isBeginning
  log := s.log ++ [(i, act)]

section

variable (s : Scene ι) (i : ι) (act : Act) (rest : Activity Task.Reply)

@[simp] theorem take_engine : (s.take i act rest).engine = act.engine s.engine := rfl

@[simp] theorem take_holder : (s.take i act rest).holder = act.holder i s.holder := rfl

@[simp] theorem take_rest : (s.take i act rest).rest = Function.update s.rest i rest := rfl

@[simp] theorem take_inFlight :
    (s.take i act rest).inFlight = Function.update s.inFlight i act.isBeginning := rfl

@[simp] theorem take_log : (s.take i act rest).log = s.log ++ [(i, act)] := rfl

end

def after (s : Scene ι) : Move ι → Scene ι
  | .turn i answers =>
    match s.next i answers with
    | some (act, rest) => s.take i act rest
    | none => s
  | .raise flag => { s with engine := s.engine.raise flag }

def play (s : Scene ι) (moves : List (Move ι)) : Scene ι :=
  moves.foldl after s

@[simp] theorem play_nil (s : Scene ι) : s.play [] = s := rfl

@[simp] theorem play_cons (s : Scene ι) (move : Move ι) (moves : List (Move ι)) :
    s.play (move :: moves) = (s.after move).play moves := rfl

theorem play_append (s : Scene ι) (moves later : List (Move ι)) :
    s.play (moves ++ later) = (s.play moves).play later :=
  List.foldl_append

end Scene

end TestExplorer
