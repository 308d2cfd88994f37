import TestExplorer.Config
import TestExplorer.FileSystem.Basic
import TestExplorer.Run.Plan
import TestExplorer.Verdict

set_option autoImplicit false

namespace TestExplorer

-- Death by a signal leaves no status.
structure Captured where
  status : Option Int
  out : List UInt8
  err : List UInt8

def Captured.output (c : Captured) : Output :=
  .ofStreams c.status (Text.ofBytes c.out) (Text.ofBytes c.err)

structure Process where
  -- How long it takes until it has ended and nothing can be printed any more.
  nanos : Nat
  captured : Except IoError Captured
  -- Signals sent to the parent, each with its time.
  signals : List (Nat × Nat) := []

def Process.result (p : Process) : LaunchResult :=
  match p.captured with
  | .ok captured => .finished captured.output
  | .error cause => .failed (.io cause)

/-- The processes of a system, which starts a program with arguments. -/
class Processes where
  start : Site → String → List (List UInt8) → Except IoError Process

structure Launcher where
  program : String
  args : List String := []
  timeout : Option Duration := none

namespace Launcher

def ofSettings (s : InterpreterSettings) : Launcher :=
  { program := s.program, args := s.args, timeout := s.timeout? }

def arguments (l : Launcher) (i : Invocation) : List (List UInt8) :=
  l.args.map Text.toBytes ++
    [Text.toBytes "-s", i.path.bytes, Text.toBytes "-g", Text.toBytes i.goal]

structure Launch where
  result : LaunchResult
  elapsed : Duration := ⟨0⟩
  signals : List Nat := []

-- A process that takes as long as its limit is ended.
def launch [Processes] (l : Launcher) (site : Site) (i : Invocation) : Launch :=
  match Processes.start site l.program (l.arguments i) with
  | .error cause => { result := .failed (.spawn l.program cause) }
  | .ok process =>
    let whole : Launch :=
      { result := process.result, elapsed := ⟨process.nanos⟩
        signals := process.signals.map (·.2) }
    match l.timeout with
    | none => whole
    | some limit =>
      if process.nanos < limit.nanos then whole
      else
        { result := .failed (.timedOut limit), elapsed := limit
          signals := (process.signals.filter (·.1 < limit.nanos)).map (·.2) }

end Launcher

end TestExplorer
