import TestExplorer.Notice

set_option autoImplicit false

namespace TestExplorer

/-- What one document added. Units that joined an earlier suite are not counted. -/
structure Found where
  path : Path
  suites : Nat
  tests : Nat
  warnings : List Warning
  deriving DecidableEq

structure Insertion where
  tree : Tree
  found : Found
  notices : List Notice
  deriving DecidableEq

namespace Insertion

def note (i : Insertion) (n : Notice) : Insertion :=
  { i with notices := i.notices ++ [n] }

end Insertion

def Tree.freeTestIdFrom (t : Tree) (path : Path) (name : String) : Nat → Nat → TestId
  | 0, ordinal => TestId.of path name ordinal
  | fuel + 1, ordinal =>
    let id := TestId.of path name ordinal
    if t.hasTest id then t.freeTestIdFrom path name fuel (ordinal + 1) else id

/-- The free identifier of least ordinal. A tree cannot hold more ordinals than tests. -/
def Tree.freeTestId (t : Tree) (path : Path) (name : String) : TestId :=
  t.freeTestIdFrom path name t.testCount 1

namespace Document

def insertTest (path : Path) (suite : SuiteId) (i : Insertion) (mark : TestMark) : Insertion :=
  let id := i.tree.freeTestId path mark.name
  let i := if id = TestId.of path mark.name then i
    else i.note (.duplicateTest mark.line mark.name id)
  match i.tree.addTestWithId suite id mark.name path mark.line with
  | .ok (tree, _) => { i with tree, found := { i.found with tests := i.found.tests + 1 } }
  | .error error => i.note (.skippedTest mark.name error)

def insertUnit (path : Path) (i : Insertion) (unit : UnitMark) : Insertion :=
  match i.tree.addSuite unit.name path unit.line with
  | .ok (tree, suite) =>
    unit.tests.foldl (insertTest path suite.id)
      { i with tree, found := { i.found with suites := i.found.suites + 1 } }
  | .error (.duplicateKey _) =>
    unit.tests.foldl (insertTest path (SuiteId.of path unit.name))
      (i.note (.reopened unit.line unit.name))
  | .error error => i.note (.skippedUnit unit.name error)

def insertInto (d : Document) (tree : Tree) : Insertion :=
  d.units.foldl (insertUnit d.path)
    { tree
      found := { path := d.path, suites := 0, tests := 0, warnings := d.warnings }
      notices := d.warnings.map .malformed }

def replaceIn (d : Document) (tree : Tree) : Insertion :=
  d.insertInto (tree.removeDocument d.path)

end Document

end TestExplorer
