import TestExplorer.Shell.Parser
import TestExplorer.Shell.Programs

set_option autoImplicit false

namespace TestExplorer.Shell

structure Chunk where
  time : Nat
  owner : Nat
  text : List Char

inductive Sink where
  | out
  | err
  -- Into the input of the next command, or the word in which the command stands.
  | pipe
  | nowhere
  | file (path : Path)

inductive Flow where
  | going
  | exited
  | returned
  | broken (loops : Nat)
  | continued (loops : Nat)
  | killed (signal : Nat)
  -- It runs for longer than anyone waits.
  | endless
  deriving DecidableEq

structure Job where
  id : Nat
  finish : Nat
  status : Nat
  -- Whether it can still print where the shell prints.
  holds : Bool
  signal : Option Nat := none

structure Sent where
  time : Nat
  target : Nat
  signal : Nat

structure State where
  site : Site
  name : List Char
  params : List (List Char)
  -- What the shell goes by in `$$`.
  id : Nat
  parent : Nat
  -- The process that runs the commands: the shell, or a copy of it.
  self : Nat
  nextId : Nat
  vars : List (List Char × List Char) := []
  exported : List (List Char) := []
  fixed : List (List Char) := []
  functions : List (List Char × Command) := []
  -- What the variables of the function at hand stood for outside of it.
  outer : List (List Char × Option (List Char)) := []
  -- The text that is being run in place of a command, and the colon behind its name.
  within : List Char := []
  traps : List (Nat × List Char) := []
  jobs : List Job := []
  lastJob : Option Nat := none
  line : Nat := 1
  loops : Nat := 0
  isFunction : Bool := false
  strict : Bool := false
  tested : Bool := false
  traced : Bool := false
  needsSet : Bool := false
  sinks : List (Nat × Sink) := [(1, .out), (2, .err)]
  input : List Char := []
  status : Nat := 0
  -- The status of the last script whose output stands in the command at hand.
  substituted : Option Nat := none
  nanos : Nat := 0
  out : List Chunk := []
  err : List Chunk := []
  pipe : List Chunk := []
  signals : List Sent := []
  flow : Flow := .going

def shown (n : Nat) : List Char :=
  Nat.toDigits 10 n

def collect (chunks : List Chunk) : List Char :=
  (chunks.reverse.mergeSort fun a b => a.time ≤ b.time).flatMap (·.text)

namespace State

def lookup? (s : State) (name : List Char) : Option (List Char) :=
  match name with
  | ['#'] => some (shown s.params.length)
  | ['$'] => some (shown s.id)
  | ['?'] => some (shown s.status)
  | ['!'] => s.lastJob.map shown
  | ['-'] => some (if s.strict then ['e'] else [])
  | ['*'] => some (joinWords s.params)
  | ['@'] => some (joinWords s.params)
  | ['0'] => some s.name
  | _ =>
    if !name.isEmpty && name.all isDigit then s.params[natOf name - 1]?
    else match s.vars.find? (·.1 = name) with
      | some (_, value) => some value
      | none => if name = "PPID".toList then some (shown s.parent) else none

def parameter (s : State) (name : List Char) : List Char :=
  (s.lookup? name).getD []

def bind (s : State) (name value : List Char) : State :=
  { s with vars := (name, value) :: s.vars.filter (·.1 ≠ name) }

def appendTo (site : Site) (path : Path) (text : List Char) : Site :=
  let old := (site.fs.read [] path).toOption.getD []
  { site with fs := site.fs.write [] path (.file (.bytes (old ++ toBytes text))) }

def sinkOf? (s : State) (descriptor : Nat) : Option Sink :=
  (s.sinks.find? (·.1 = descriptor)).map (·.2)

def withSink (s : State) (descriptor : Nat) (sink : Sink) : State :=
  { s with sinks := (descriptor, sink) :: s.sinks.filter (·.1 ≠ descriptor) }

def withoutSink (s : State) (descriptor : Nat) : State :=
  { s with sinks := s.sinks.filter (·.1 ≠ descriptor) }

def send (s : State) (sink : Sink) (text : List Char) : State :=
  if text.isEmpty then s
  else
    let chunk : Chunk := ⟨s.nanos, s.self, text⟩
    match sink with
    | .out => { s with out := chunk :: s.out }
    | .err => { s with err := chunk :: s.err }
    | .pipe => { s with pipe := chunk :: s.pipe }
    | .nowhere => s
    | .file path => { s with site := appendTo s.site path text }

def print (s : State) (text : List Char) : State :=
  match s.sinkOf? 1 with
  | some sink => s.send sink text
  | none => s

def printErr (s : State) (text : List Char) : State :=
  match s.sinkOf? 2 with
  | some sink => s.send sink text
  | none => s

def ended (s : State) (status : Nat) : State :=
  { s with status }

def complain (s : State) (text : List Char) : State :=
  s.printErr (s.name ++ ": ".toList ++ shown s.line ++ ": ".toList ++ s.within ++ text ++ ['\n'])

def fail (s : State) (text : List Char) : State :=
  (s.complain text).ended 2

def stuck (s : State) : State :=
  { s with flow := .endless, nanos := s.nanos + forever }

def abort (s : State) (text : List Char) : State :=
  { s.fail text with flow := .exited }

def assign (s : State) (name value : List Char) : State :=
  if s.fixed.contains name then s.abort (name ++ ": is read only".toList) else s.bind name value

def copy (s : State) : State :=
  { s with
    self := s.nextId, nextId := s.nextId + 1, loops := 0, jobs := [], signals := []
    traps := s.traps.filter (·.2.isEmpty), flow := .going }

def adopt (s other : State) : State :=
  { s with
    site := { s.site with fs := other.site.fs }, out := other.out, err := other.err
    pipe := other.pipe, input := other.input, nextId := other.nextId, nanos := other.nanos
    signals := s.signals ++ other.signals }

def join (s other : State) : State :=
  let s := { s.adopt other with status := other.status, jobs := s.jobs ++ other.jobs }
  match other.flow with
  | .killed signal => s.ended (128 + signal)
  | .endless => { s with flow := .endless }
  | _ => s

def finish (s : State) : Nat :=
  ((s.jobs.filter (·.holds)).map (·.finish)).foldl max s.nanos

def endJob (s : State) (id signal : Nat) : State :=
  let before (chunks : List Chunk) := chunks.filter fun c => c.owner != id || c.time ≤ s.nanos
  { s with
    out := before s.out, err := before s.err, pipe := before s.pipe
    jobs := s.jobs.map fun j =>
      if j.id = id && s.nanos < j.finish then { j with finish := s.nanos, status := 128 + signal, signal := some signal }
      else j }

end State

def signalNames : List (String × Nat) :=
  [("EXIT", 0), ("HUP", 1), ("INT", 2), ("QUIT", 3), ("ILL", 4), ("TRAP", 5), ("ABRT", 6), ("BUS", 7),
    ("FPE", 8), ("KILL", 9), ("USR1", 10), ("SEGV", 11), ("USR2", 12), ("PIPE", 13), ("ALRM", 14),
    ("TERM", 15), ("CHLD", 17), ("CONT", 18), ("STOP", 19), ("TSTP", 20), ("TTIN", 21), ("TTOU", 22),
    ("URG", 23), ("XCPU", 24), ("XFSZ", 25), ("VTALRM", 26), ("PROF", 27), ("WINCH", 28)]

def signalOf? (text : List Char) : Option Nat :=
  if !text.isEmpty && text.all isDigit then some (natOf text)
  else (signalNames.find? fun (name, _) =>
    name.toList = text.map Char.toUpper).map (·.2)

def isIgnoredSignal (signal : Nat) : Bool :=
  signal == 0 || signal == 17 || signal == 18 || signal == 23 || signal == 28

def isStopSignal (signal : Nat) : Bool :=
  19 ≤ signal && signal ≤ 22

def deathNotice (signal : Nat) : List Char :=
  let text := match signal with
    | 1 => "Hangup"
    | 3 => "Quit"
    | 4 => "Illegal instruction"
    | 5 => "Trace/breakpoint trap"
    | 6 => "Aborted"
    | 7 => "Bus error"
    | 8 => "Floating point exception"
    | 9 => "Killed"
    | 10 => "User defined signal 1"
    | 11 => "Segmentation fault"
    | 12 => "User defined signal 2"
    | 14 => "Alarm clock"
    | 15 => "Terminated"
    | _ => ""
  if text.isEmpty then [] else text.toList ++ ['\n']

end TestExplorer.Shell
