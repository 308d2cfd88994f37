import TestExplorer.Interpreter
import TestExplorer.Shell.Eval

set_option autoImplicit false

namespace TestExplorer.Shell

def nulError : IoError :=
  .other "nul byte found in provided data"

def Ending.process (e : Ending) : Process where
  nanos := e.nanos
  captured := .ok
    { status := e.status.map Int.ofNat, out := toBytes e.out, err := toBytes e.err }
  signals := e.signals

-- Starts `program`. A name without a separator is looked up, any other is a path; files are no
-- programs.
def start (site : Site) (program : String) (args : List (List UInt8)) : Except IoError Process :=
  if (program.toList.contains '\x00') || args.any (·.contains 0) then .error nulError
  else match start? site (ofString program) (args.map ofBytes) with
    | some ending => .ok ending.process
    | none =>
      if program.toList.contains '/' then
        match site.fs.stat site.here (.ofString program) with
        | .ok _ => .error .permissionDenied
        | .error cause => .error cause
      else .error .notFound

instance : Processes where
  start := start

end TestExplorer.Shell
