import TestExplorer.Json
import TestExplorer.Tree.Insertion

set_option autoImplicit false

namespace TestExplorer

structure Diagnostic where
  line : Nat
  endColumn : Nat
  message : String
  deriving DecidableEq

structure Position where
  line : Nat
  column : Nat
  deriving DecidableEq

structure Range where
  start : Position
  stop : Position
  deriving DecidableEq

def Diagnostic.range (d : Diagnostic) : Range where
  start := ⟨d.line, 0⟩
  stop := ⟨d.line, d.endColumn⟩

def units16 (text : String) : Nat :=
  (text.toList.map fun c => if c.toNat < 0x10000 then 1 else 2).foldr (· + ·) 0

def clamp32 (n : Nat) : Nat :=
  min n 0xFFFFFFFF

def Warning.diagnostic (w : Warning) : Diagnostic :=
  { line := clamp32 w.line
    endColumn := clamp32 (units16 w.text)
    message := s!"\x60{w.marker.label}\x60 marker {w.fault.description}; it is ignored" }

def Found.diagnostics (f : Found) : List Diagnostic :=
  f.warnings.map Warning.diagnostic

def Position.json (p : Position) : Json :=
  .object [("line", .nat p.line), ("character", .nat p.column)]

def Range.json (r : Range) : Json :=
  .object [("start", r.start.json), ("end", r.stop.json)]

def Diagnostic.json (d : Diagnostic) : Json :=
  .object [
    ("range", d.range.json),
    ("severity", .number 2), ("source", .string "prologtest"), ("message", .string d.message)]

end TestExplorer
