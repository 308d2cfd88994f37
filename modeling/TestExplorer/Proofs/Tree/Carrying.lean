import TestExplorer.Proofs.Scan.Moving
import TestExplorer.Proofs.Tree.FreeIdentifier

set_option autoImplicit false

namespace TestExplorer

section

variable (move : Nat → Nat)

def Test.moved (x : Test) : Test :=
  { x with line := move x.line }

def Suite.moved (s : Suite) : Suite :=
  { s with line := move s.line, tests := s.tests.map (Test.moved move) }

def Notice.moved : Notice → Notice
  | .reopened line unit => .reopened (move line) unit
  | .duplicateTest line test id => .duplicateTest (move line) test id
  | other => other

def Insertion.carried (f : Tree → Tree) (i : Insertion) : Insertion :=
  { i with tree := f i.tree, notices := i.notices.map (Notice.moved move) }

end

@[simp] theorem moved_id_test : Test.moved id = id := rfl

@[simp] theorem moved_id_suite : Suite.moved id = id := by
  funext s
  simp [Suite.moved]

@[simp] theorem Notice.moved_id : Notice.moved id = id := by
  funext n
  cases n <;> simp [moved]

/-- The operations by which a document at `path` enters a tree do to `f` of a tree, with moved
lines, what they do to the tree. -/
structure Tree.Carries (path : Path) (move : Nat → Nat) (f : Tree → Tree) : Prop where
  hasTest : ∀ t name k,
    (f t).hasTest (TestId.of path name k) = t.hasTest (TestId.of path name k)
  addSuite : ∀ t name line, (f t).addSuite name path (move line) =
    (t.addSuite name path line).map fun (t, s) => (f t, s.moved move)
  addTest : ∀ t unit name k line,
    (f t).addTestWithId (SuiteId.of path unit) (TestId.of path name k) name path (move line) =
      (t.addTestWithId (SuiteId.of path unit) (TestId.of path name k) name path line).map
        fun (t, x) => (f t, x.moved move)

namespace Tree.Carries

variable {path : Path} {move : Nat → Nat} {f : Tree → Tree} (carries : Carries path move f)

include carries

theorem freeTestId (t : Tree) (name : String) :
    (f t).freeTestId path name = t.freeTestId path name :=
  freeTestId_congr (carries.hasTest t name)

theorem insertTest (unit : String) (i : Insertion) (mark : TestMark) :
    Document.insertTest path (SuiteId.of path unit) (i.carried move f) (mark.moved move) =
      (Document.insertTest path (SuiteId.of path unit) i mark).carried move f := by
  obtain ⟨k, -, -, found, -⟩ := i.tree.freeTestId_least path mark.name
  simp only [Document.insertTest, Insertion.carried, TestMark.moved, carries.freeTestId, found]
  by_cases first : TestId.of path mark.name k = TestId.of path mark.name <;>
    simp only [first, if_true, if_false, Insertion.note, carries.addTest] <;>
    cases i.tree.addTestWithId (SuiteId.of path unit) _ mark.name path mark.line <;>
    simp [Except.map, Notice.moved]

theorem insertTests (unit : String) (i : Insertion) (marks : List TestMark) :
    (marks.map (TestMark.moved move)).foldl (Document.insertTest path (SuiteId.of path unit))
        (i.carried move f) =
      (marks.foldl (Document.insertTest path (SuiteId.of path unit)) i).carried move f := by
  rw [List.foldl_map]
  exact List.foldl_hom (Insertion.carried move f) (carries.insertTest unit)

theorem insertUnit (i : Insertion) (unit : UnitMark) :
    Document.insertUnit path (i.carried move f) (unit.moved move) =
      (Document.insertUnit path i unit).carried move f := by
  have added := carries.addSuite i.tree unit.name unit.line
  simp only [Document.insertUnit]
  cases result : i.tree.addSuite unit.name path unit.line with
  | ok parts =>
    obtain ⟨tree, s⟩ := parts
    have named : s.id = SuiteId.of path unit.name := by rw [(Tree.addSuite_ok result).2.1]
    simp only [result, Except.map] at added
    simp only [Insertion.carried, UnitMark.moved, added, Suite.moved, named]
    exact carries.insertTests unit.name
      { i with tree, found := { i.found with suites := i.found.suites + 1 } } unit.tests
  | error error =>
    simp only [result, Except.map] at added
    simp only [Insertion.carried, UnitMark.moved, added]
    cases error with
    | duplicateKey id =>
      let joining := i.note (.reopened unit.line unit.name)
      have joined := carries.insertTests unit.name joining unit.tests
      simpa [Insertion.carried, Insertion.note, Notice.moved, joining] using joined
    | unknownSuite id => simp [Insertion.note, Notice.moved]

omit carries in
theorem insertInto {d : Document} (carries : Carries d.path move f) (t : Tree) :
    (d.moved move).insertInto (f t) = (d.insertInto t).carried move f := by
  let start : Insertion :=
    { tree := t
      found := { path := d.path, suites := 0, tests := 0, warnings := d.warnings }
      notices := d.warnings.map .malformed }
  have carried : (d.moved move).insertInto (f t) =
      (d.units.map (UnitMark.moved move)).foldl (Document.insertUnit d.path)
        (start.carried move f) := by
    simp [Document.insertInto, Document.moved, Insertion.carried, Notice.moved, start,
      Function.comp_def]
  rw [carried, List.foldl_map]
  exact List.foldl_hom (Insertion.carried move f) carries.insertUnit

end Tree.Carries

/-! ## Warnings -/

def Insertion.warned (warnings : List Warning) (i : Insertion) : Insertion :=
  { i with
    found := { i.found with warnings }
    notices := warnings.map .malformed ++ i.notices }

namespace Document

variable (path : Path) (warnings : List Warning)

theorem insertTest_warned (suite : SuiteId) (i : Insertion) (mark : TestMark) :
    insertTest path suite (i.warned warnings) mark =
      (insertTest path suite i mark).warned warnings := by
  by_cases first : i.tree.freeTestId path mark.name = TestId.of path mark.name <;>
    simp only [insertTest, Insertion.warned, Insertion.note, first, if_true, if_false] <;>
    cases i.tree.addTestWithId suite _ mark.name path mark.line <;> simp

theorem insertTests_warned (suite : SuiteId) (i : Insertion) (marks : List TestMark) :
    marks.foldl (insertTest path suite) (i.warned warnings) =
      (marks.foldl (insertTest path suite) i).warned warnings :=
  List.foldl_hom (Insertion.warned warnings) (insertTest_warned path warnings suite)

theorem insertUnit_warned (i : Insertion) (unit : UnitMark) :
    insertUnit path (i.warned warnings) unit = (insertUnit path i unit).warned warnings := by
  have noted (n : Notice) : (i.warned warnings).note n = (i.note n).warned warnings := by
    simp [Insertion.warned, Insertion.note]
  have tree : (i.warned warnings).tree = i.tree := rfl
  simp only [insertUnit, tree, noted]
  cases i.tree.addSuite unit.name path unit.line with
  | ok parts =>
    exact insertTests_warned path warnings parts.2.id
      { i with tree := parts.1, found := { i.found with suites := i.found.suites + 1 } } unit.tests
  | error error =>
    cases error with
    | duplicateKey id => exact insertTests_warned path warnings _ _ _
    | unknownSuite id => rfl

theorem insertInto_warned (d : Document) (t : Tree) :
    d.insertInto t = ({ d with warnings := [] }.insertInto t).warned d.warnings := by
  let start : Insertion :=
    { tree := t, found := { path := d.path, suites := 0, tests := 0, warnings := [] }, notices := [] }
  have opening : d.insertInto t =
      d.units.foldl (insertUnit d.path) (start.warned d.warnings) := by
    simp [insertInto, start, Insertion.warned]
  rw [opening]
  exact List.foldl_hom (Insertion.warned d.warnings) (insertUnit_warned d.path d.warnings)

end Document

end TestExplorer
