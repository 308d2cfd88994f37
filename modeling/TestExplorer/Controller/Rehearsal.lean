import TestExplorer.Controller.Requests
import TestExplorer.Sources

set_option autoImplicit false

namespace TestExplorer

inductive Errand where
  | resolve (id : Option String)
  | reload
  | cancel
  | changed (path : Path)
  | edited (path : Path) (source : String)
  | snapshot
  | dispose
  | isDisposed
  | recognizes (path : Path)
  | roots
  | write (path : Path) (node : Inode)
  | remove (path : Path)
  | keep (path : Path) (source : String)
  | forget (path : Path)

inductive Reply where
  | nodes (result : Except EngineError (List Node))
  | summary (result : Except EngineError Summary)
  | found (result : Except EngineError (Option Found))
  | flag (b : Bool)
  | paths (ps : List Path)
  | nothing

structure LaunchRule where
  pattern : String := ""
  errands : List Errand := []
  result : LaunchResult := .finished { exitCode := some 0, text := "" }

-- The text of a panic is that of the task, whose number is not told.
def LaunchRule.ending (rule : LaunchRule) : LaunchResult :=
  match rule.result with
  | .panicked text => .panicked ("task N panicked with message " ++ Text.quoted text)
  | result => result

inductive CancelAfter where
  | never
  | started (count : Nat)
  | finished (count : Nat)

structure Recorder where
  flag : Flag := 0
  cancelAfter : CancelAfter := .never
  silent : Bool := false
  started : Nat := 0
  finished : Nat := 0
  events : List RunEvent := []

def Recorder.take (r : Recorder) (event : RunEvent) : Recorder × Bool :=
  if r.silent then (r, false)
  else
    let r := { r with events := r.events ++ [event] }
    match event with
    | .started _ =>
      let r := { r with started := r.started + 1 }
      (r, match r.cancelAfter with
        | .started n => r.started == n
        | _ => false)
    | .finished _ _ =>
      let r := { r with finished := r.finished + 1 }
      (r, match r.cancelAfter with
        | .finished n => r.finished == n
        | _ => false)
    | _ => (r, false)

structure Rehearsal where
  site : Site
  controller : Controller
  memory : Option (List (Path × String)) := none
  rules : List LaunchRule := []
  recorder : Recorder := {}
  notices : List Notice := []
  invocations : List Invocation := []
  replies : List Reply := []
  launches : Nat := 0
  nextFlag : Flag := 0

namespace Rehearsal

abbrev Stage := Engine × Rehearsal

def notInMemory : IoError :=
  .other "not in memory"

def readDocument (r : Rehearsal) (path : Path) : Except IoError String :=
  match r.memory with
  | none => r.site.fs.readSource r.site.here path
  | some texts =>
    match texts.find? fun (known, _) => known.Same path with
    | some (_, text) => .ok text
    | none => .error notInMemory

variable [Walker]

def quietHost : Activity.Host Rehearsal
  | .enumerate root, (e, r) =>
    let (answer, notices) := listSources r.site r.controller.settings root
    (answer, (e, { r with notices := r.notices ++ notices }))
  | .read path, (e, r) => (r.readDocument path, (e, r))
  | .launch _, s => (.finished { exitCode := some 0, text := "" }, s)
  | .notify event, (e, r) =>
    let (recorder, cancels) := r.recorder.take event
    ((), (if cancels then e.raise r.recorder.flag else e, { r with recorder }))
  | .note notices, (e, r) => ((), (e, { r with notices := r.notices ++ notices }))

def onMemory (r : Rehearsal) (f : List (Path × String) → List (Path × String)) : Rehearsal :=
  { r with memory := r.memory.map f }

def holds (r : Rehearsal) (path : Path) : Bool :=
  (r.memory.getD []).any fun (known, _) => known.Same path

def onFiles (r : Rehearsal) (fs : FileSystem) : Rehearsal :=
  { r with site := { r.site with fs } }

def perform (errand : Errand) (s : Stage) : Reply × Stage :=
  let (_, r) := s
  let c := r.controller
  match errand with
  | .resolve id =>
    let (nodes, s) := (c.resolve id).exec quietHost s
    (.nodes nodes, s)
  | .reload =>
    let (summary, s) := c.reload.exec quietHost s
    (.summary summary, s)
  | .cancel =>
    let (raised, s) := Controller.cancel.exec quietHost s
    (.flag raised, s)
  | .changed path =>
    let (found, s) := (c.documentChanged path).exec quietHost s
    (.found found, s)
  | .edited path source =>
    let (found, s) := (c.documentEdited path source).exec quietHost s
    (.found found, s)
  | .snapshot =>
    let (tree, s) := Controller.snapshot.exec quietHost s
    (.nodes (.ok tree.nodes), s)
  | .dispose =>
    let ((), s) := Controller.dispose.exec quietHost s
    (.flag s.1.disposed, s)
  | .isDisposed =>
    let (disposed, s) := Controller.isDisposed.exec quietHost s
    (.flag disposed, s)
  | .recognizes path => (.flag (c.recognizes path), s)
  | .roots => (.paths c.roots, s)
  | .write path node => (.nothing, s.1, r.onFiles (r.site.fs.write r.site.here path node))
  | .remove path =>
    let (fs, removed) := r.site.fs.remove r.site.here path
    (.flag removed, s.1, r.onFiles fs)
  | .keep path source =>
    (.nothing, s.1, r.onMemory fun texts => (path, source) :: Engine.withoutBuffer path texts)
  | .forget path =>
    (.flag (r.holds path), s.1, r.onMemory (Engine.withoutBuffer path))

def performAll : List Errand → Stage → Stage
  | [], s => s
  | errand :: rest, s =>
    let (reply, (e, r)) := perform errand s
    performAll rest (e, { r with replies := r.replies ++ [reply] })

def answer (rules : List LaunchRule) (goal : String) : LaunchRule :=
  (rules.find? fun rule => Text.occurs rule.pattern.toList goal.toList).getD {}

def host : Activity.Host Rehearsal
  | .launch invocation, (e, r) =>
    let rule := answer r.rules invocation.goal
    let r := { r with invocations := r.invocations ++ [invocation], launches := r.launches + 1 }
    (rule.ending, performAll rule.errands (e, r))
  | .enumerate root, s => quietHost (.enumerate root) s
  | .read path, s => quietHost (.read path) s
  | .notify event, s => quietHost (.notify event) s
  | .note notices, s => quietHost (.note notices) s

structure RunInput where
  scope : Scope := .all
  options : RunOptions := {}
  cancelled : Bool := false
  cancelAfter : CancelAfter := .never
  silent : Bool := false

structure RunOutput where
  report : Except EngineError Report
  events : List RunEvent
  flag : Bool

structure Waiting where
  flag : Flag
  input : RunInput
  rest : Activity (Except EngineError Report)

def arrive : List RunInput → Stage → List Waiting × Stage
  | [], s => ([], s)
  | input :: more, (e, r) =>
    let flag := r.nextFlag
    let e := if input.cancelled then e.raise flag else e
    let run := r.controller.run input.scope input.options flag
    let (rest, s) := run.execUntil host .runs (e, { r with nextFlag := flag + 1 })
    let (waiting, s) := arrive more s
    ({ flag, input, rest } :: waiting, s)

def serve : List Waiting → Stage → List RunOutput × Stage
  | [], s => ([], s)
  | w :: more, (e, r) =>
    let recorder : Recorder :=
      { flag := w.flag, cancelAfter := w.input.cancelAfter, silent := w.input.silent }
    let (report, (e, r)) := w.rest.exec host (e, { r with recorder })
    let output := { report, events := r.recorder.events, flag := e.isRaised w.flag }
    let (outputs, s) := serve more (e, r)
    (output :: outputs, s)

/-- Runs that start together. They are served one after the other in the order of their start. -/
def runAll (inputs : List RunInput) (s : Stage) : List RunOutput × Stage :=
  let (waiting, s) := arrive inputs s
  serve waiting s

def fresh (s : Stage) : Stage :=
  (s.1, { s.2 with notices := [], invocations := [], replies := [] })

end Rehearsal

end TestExplorer
