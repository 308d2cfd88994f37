import TestExplorer.Proofs.Tree.Carrying

set_option autoImplicit false

namespace TestExplorer

namespace Tree

variable (move : Nat → Nat)

def moved (t : Tree) : Tree :=
  ⟨t.suites.map (Suite.moved move)⟩

@[simp] theorem tests_moved (t : Tree) : (t.moved move).tests = t.tests.map (Test.moved move) := by
  simp [moved, tests, Suite.moved, List.flatMap_map, List.map_flatMap]

theorem suite?_moved (t : Tree) (id : SuiteId) :
    (t.moved move).suite? id = (t.suite? id).map (Suite.moved move) := by
  simp only [suite?, moved, List.find?_map]
  rfl

theorem hasTest_moved (t : Tree) (id : TestId) : (t.moved move).hasTest id = t.hasTest id := by
  rw [Bool.eq_iff_iff, hasTest_iff, hasTest_iff]
  simp [Test.moved]

theorem appendTest_moved (owner : SuiteId) (x : Test) (suites : List Suite) :
    appendTest owner (x.moved move) (suites.map (Suite.moved move)) =
      (appendTest owner x suites).map (List.map (Suite.moved move)) := by
  induction suites with
  | nil => rfl
  | cons s rest ih =>
    have key : (s.moved move).id = s.id := rfl
    simp only [List.map_cons, appendTest, key, ih]
    split
    next => simp [Suite.moved]
    next => simp [Function.comp_def]

theorem carries_moved (path : Path) : Carries path move (moved move) where
  hasTest t name k := t.hasTest_moved move _
  addSuite t name line := by
    simp only [addSuite_eq, suite?_moved, Option.isSome_map]
    split
    next => rfl
    next => simp [Except.map, moved, Suite.moved]
  addTest t unit name k line := by
    let x : Test :=
      { id := TestId.of path name k, name, path, line, suite := SuiteId.of path unit }
    have appended := appendTest_moved move (SuiteId.of path unit) x t.suites
    simp only [Test.moved, x] at appended
    simp only [addTestWithId_eq, hasTest_moved]
    split
    next => rfl
    next =>
      simp only [moved, appended]
      cases appendTest (SuiteId.of path unit) _ t.suites <;> rfl

end Tree

theorem Document.insertInto_moved (move : Nat → Nat) (d : Document) :
    (d.moved move).insertInto {} = (d.insertInto {}).carried move (Tree.moved move) :=
  (Tree.carries_moved move d.path).insertInto {}

end TestExplorer
