import TestExplorer.Path
import TestExplorer.Scan

set_option autoImplicit false

namespace TestExplorer

structure TestMark where
  name : String
  line : Nat
  deriving DecidableEq

structure UnitMark where
  name : String
  line : Nat
  tests : List TestMark
  deriving DecidableEq

structure Document where
  path : Path
  units : List UnitMark
  warnings : List Warning
  deriving DecidableEq

namespace Document

structure Draft where
  units : List UnitMark := []
  warnings : List Warning := []
  -- The place of the unit that takes the next test.
  current : Option Nat := none
  deriving DecidableEq

namespace Draft

def take (d : Draft) : ScanItem → Draft
  | .event (.suiteBegin name line) =>
    { d with units := d.units ++ [⟨name, line, []⟩], current := some d.units.length }
  | .event (.suiteEnd _) => { d with current := none }
  | .event (.testCase name line) =>
    match d.current with
    | some index =>
      let declare (unit : UnitMark) : UnitMark := { unit with tests := unit.tests ++ [⟨name, line⟩] }
      { d with units := d.units.modify index declare }
    | none => d
  | .warning w =>
    -- A malformed begin marker still ends the span of the unit before it.
    let current := if w.marker = .suiteBegin then none else d.current
    { d with warnings := d.warnings ++ [w], current }

end Draft

def scan (path : Path) (source : String) : Document :=
  let draft := ((TestExplorer.scan source).map (·.item)).foldl Draft.take {}
  { path, units := draft.units, warnings := draft.warnings }

def testCount (d : Document) : Nat :=
  (d.units.map (·.tests.length)).foldr (· + ·) 0

end Document

end TestExplorer
