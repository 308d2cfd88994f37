import TestExplorer.Proofs.Tree.Carrying

set_option autoImplicit false

namespace TestExplorer

namespace Tree

-- The others come first, so a search that finds nothing there goes on as if they were absent.
def above (others t : Tree) : Tree :=
  ⟨others.suites ++ t.suites⟩

@[simp] theorem above_empty (t : Tree) : t.above {} = t := by
  simp [above]

@[simp] theorem tests_above (others t : Tree) :
    (others.above t).tests = others.tests ++ t.tests := by
  simp [above, tests]

structure Apart (others : Tree) (path : Path) : Prop where
  suites : ∀ s ∈ others.suites, ∀ name, s.id ≠ SuiteId.of path name
  tests : ∀ x ∈ others.tests, ∀ name k, x.id ≠ TestId.of path name k

variable {others : Tree} {path : Path}

theorem suite?_above (apart : others.Apart path) (t : Tree) (name : String) :
    (others.above t).suite? (SuiteId.of path name) = t.suite? (SuiteId.of path name) := by
  have absent : others.suites.find? (·.id = SuiteId.of path name) = none := by
    simpa using fun s member => apart.suites s member name
  simp [suite?, above, absent]

theorem hasTest_above (apart : others.Apart path) (t : Tree) (name : String) (k : Nat) :
    (others.above t).hasTest (TestId.of path name k) = t.hasTest (TestId.of path name k) := by
  have absent : ¬ ∃ x ∈ others.tests, x.id = TestId.of path name k :=
    fun ⟨x, member, same⟩ => apart.tests x member name k same
  rw [Bool.eq_iff_iff, hasTest_iff, hasTest_iff]
  simp only [tests_above, List.mem_append]
  grind

theorem addSuite_above (apart : others.Apart path) (t : Tree) (name : String) (line : Nat) :
    (others.above t).addSuite name path line =
      (t.addSuite name path line).map fun (t, s) => (others.above t, s) := by
  simp only [addSuite_eq, suite?_above apart]
  split <;> simp [Except.map, above]

theorem appendTest_append {owner : SuiteId} (x : Test) {before : List Suite}
    (absent : ∀ s ∈ before, s.id ≠ owner) (suites : List Suite) :
    appendTest owner x (before ++ suites) = (appendTest owner x suites).map (before ++ ·) := by
  induction before with
  | nil => simp
  | cons s rest ih =>
    have later := ih fun s member => absent s (List.mem_cons_of_mem _ member)
    simp only [List.cons_append, appendTest, absent s List.mem_cons_self, if_false, later,
      Option.map_map]
    rfl

theorem addTestWithId_above (apart : others.Apart path) (t : Tree) (unit name : String) (k : Nat)
    (line : Nat) :
    (others.above t).addTestWithId (SuiteId.of path unit) (TestId.of path name k) name path line =
      (t.addTestWithId (SuiteId.of path unit) (TestId.of path name k) name path line).map
        fun (t, x) => (others.above t, x) := by
  have absent : ∀ s ∈ others.suites, s.id ≠ SuiteId.of path unit :=
    fun s member => apart.suites s member unit
  simp only [addTestWithId_eq, hasTest_above apart]
  split
  next => rfl
  next =>
    simp only [above, appendTest_append _ absent]
    cases appendTest (SuiteId.of path unit) _ t.suites <;> rfl

theorem carries_above (apart : others.Apart path) : Carries path id others.above where
  hasTest := hasTest_above apart
  addSuite t name line := by simpa using addSuite_above apart t name line
  addTest t unit name k line := by simpa using addTestWithId_above apart t unit name k line

end Tree

def Insertion.above (others : Tree) (i : Insertion) : Insertion :=
  { i with tree := others.above i.tree }

@[simp] theorem Insertion.tree_above (others : Tree) (i : Insertion) :
    (i.above others).tree = others.above i.tree := rfl

@[simp] theorem Insertion.found_above (others : Tree) (i : Insertion) :
    (i.above others).found = i.found := rfl

namespace Document

variable {others : Tree}

theorem insertInto_above (d : Document) (apart : others.Apart d.path) (t : Tree) :
    d.insertInto (others.above t) = (d.insertInto t).above others := by
  simpa [Insertion.carried, Insertion.above] using (Tree.carries_above apart).insertInto t

theorem insertInto_apart (d : Document) (apart : others.Apart d.path) :
    d.insertInto others = (d.insertInto {}).above others := by
  simpa using d.insertInto_above apart {}

end Document

end TestExplorer
