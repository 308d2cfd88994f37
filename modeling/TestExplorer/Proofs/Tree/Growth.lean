import TestExplorer.Proofs.Tree.Separation

set_option autoImplicit false

namespace TestExplorer

/-- What is new in the suite are tests behind those that it had. -/
structure Suite.Grows (s s' : Suite) : Prop where
  id : s'.id = s.id
  name : s'.name = s.name
  path : s'.path = s.path
  line : s'.line = s.line
  tests : s.tests <+: s'.tests

theorem Suite.Grows.refl (s : Suite) : s.Grows s :=
  ⟨rfl, rfl, rfl, rfl, List.prefix_rfl⟩

theorem Suite.Grows.trans {s s' s'' : Suite} (first : s.Grows s') (second : s'.Grows s'') :
    s.Grows s'' where
  id := second.id.trans first.id
  name := second.name.trans first.name
  path := second.path.trans first.path
  line := second.line.trans first.line
  tests := first.tests.trans second.tests

namespace Tree

def Grows (t t' : Tree) : Prop :=
  ∀ (place : Nat) (s : Suite), t.suites[place]? = some s →
    ∃ s', t'.suites[place]? = some s' ∧ s.Grows s'

namespace Grows

theorem refl (t : Tree) : t.Grows t :=
  fun _ s found => ⟨s, found, .refl s⟩

theorem trans {t t' t'' : Tree} (first : t.Grows t') (second : t'.Grows t'') : t.Grows t'' := by
  intro place s found
  obtain ⟨s', found', grown⟩ := first place s found
  obtain ⟨s'', found'', grown'⟩ := second place s' found'
  exact ⟨s'', found'', grown.trans grown'⟩

theorem addSuite {t t' : Tree} {name : String} {path : Path} {line : Nat} {s : Suite}
    (added : t.addSuite name path line = .ok (t', s)) : t.Grows t' := by
  obtain ⟨-, -, rfl⟩ := addSuite_ok added
  intro place old found
  have inside : place < t.suites.length := (List.getElem?_eq_some_iff.1 found).1
  refine ⟨old, ?_, .refl old⟩
  rw [List.getElem?_append_left inside, found]

theorem addTestWithId {t t' : Tree} {suite : SuiteId} {id : TestId} {name : String} {path : Path}
    {line : Nat} {x : Test} (added : t.addTestWithId suite id name path line = .ok (t', x)) :
    t.Grows t' := by
  obtain ⟨-, -, before, s, after, parts, -, rfl⟩ := addTestWithId_ok added
  intro place old found
  rw [parts] at found
  rcases Nat.lt_trichotomy place before.length with earlier | here | later
  · rw [List.getElem?_append_left earlier] at found
    refine ⟨old, ?_, .refl old⟩
    rw [List.getElem?_append_left earlier, found]
  · subst here
    obtain rfl : s = old := by simpa using found
    exact ⟨{ s with tests := s.tests ++ [x] }, by simp, rfl, rfl, rfl, rfl, List.prefix_append _ _⟩
  · obtain ⟨k, rfl⟩ : ∃ k, place = before.length + (k + 1) := ⟨place - before.length - 1, by omega⟩
    have behind (holder : Suite) :
        (before ++ holder :: after)[before.length + (k + 1)]? = after[k]? := by
      rw [List.getElem?_append_right (by omega), Nat.add_sub_cancel_left, List.getElem?_cons_succ]
    rw [behind] at found
    exact ⟨old, (behind _).trans found, .refl old⟩

theorem insertInto (t : Tree) (d : Document) : t.Grows (d.insertInto t).tree :=
  d.insertInto_induction t (refl t) (fun _ _ _ _ _ grown added => grown.trans (addSuite added))
    fun _ _ _ _ _ _ _ grown added => grown.trans (addTestWithId added)

end Grows

theorem testCount_addTestWithId {t t' : Tree} {suite : SuiteId} {id : TestId} {name : String}
    {path : Path} {line : Nat} {x : Test}
    (added : t.addTestWithId suite id name path line = .ok (t', x)) :
    t'.testCount = t.testCount + 1 ∧ t'.suiteCount = t.suiteCount := by
  constructor
  · have all := (tests_addTestWithId added).length_eq
    simpa [testCount_eq] using all
  · obtain ⟨-, -, before, s, after, parts, -, rfl⟩ := addTestWithId_ok added
    simp [suiteCount, parts]

theorem testCount_addSuite {t t' : Tree} {name : String} {path : Path} {line : Nat} {s : Suite}
    (added : t.addSuite name path line = .ok (t', s)) :
    t'.testCount = t.testCount ∧ t'.suiteCount = t.suiteCount + 1 := by
  obtain ⟨-, rfl, rfl⟩ := addSuite_ok added
  simp [testCount_eq, tests, suiteCount]

end Tree

def Notice.isSkip : Notice → Bool
  | skippedUnit _ _ => true
  | skippedTest _ _ => true
  | _ => false

/-- The insertion has taken as many tests of the document into the tree as marks came up. -/
structure Insertion.Takes (d : Document) (t : Tree) (marks : Nat) (i : Insertion) : Prop where
  unskipped : ∀ n ∈ i.notices, n.isSkip = false
  found : i.found =
    { path := d.path, suites := i.found.suites, tests := marks, warnings := d.warnings }
  testCount : i.tree.testCount = t.testCount + marks
  suiteCount : i.tree.suiteCount = t.suiteCount + i.found.suites

namespace Insertion.Takes

open Document

variable {d : Document} {t : Tree} {marks : Nat} {i : Insertion} (takes : Takes d t marks i)

include takes

theorem note {n : Notice} (kept : n.isSkip = false) : Takes d t marks (i.note n) where
  unskipped m member := by
    rcases List.mem_append.1 member with old | new
    · exact takes.unskipped m old
    · exact List.mem_singleton.1 new ▸ kept
  found := takes.found
  testCount := takes.testCount
  suiteCount := takes.suiteCount

theorem insertTest {suite : SuiteId} (there : ∃ s ∈ i.tree.suites, s.id = suite)
    (mark : TestMark) : Takes d t (marks + 1) (insertTest d.path suite i mark) := by
  obtain ⟨t', x, added, done⟩ := insertTest_eq d.path there mark
  have ⟨tests, suites⟩ := Tree.testCount_addTestWithId added
  rw [done]
  constructor
  case unskipped =>
    intro n member
    rcases List.mem_append.1 member with old | new
    · exact takes.unskipped n old
    · split at new
      · contradiction
      · rw [List.mem_singleton.1 new]
        rfl
  case found => rw [takes.found]
  case testCount =>
    rw [tests, takes.testCount]
    omega
  case suiteCount => rw [suites, takes.suiteCount]

theorem insertTests {suite : SuiteId} (there : ∃ s ∈ i.tree.suites, s.id = suite)
    (more : List TestMark) :
    Takes d t (marks + more.length) (more.foldl (Document.insertTest d.path suite) i) := by
  induction more generalizing marks i with
  | nil => exact takes
  | cons mark rest ih =>
    obtain ⟨s, member, same, -⟩ := insertTest_enters there mark
    have later := ih (takes.insertTest there mark) ⟨s, member, same⟩
    rwa [Nat.add_assoc, Nat.add_comm 1] at later

theorem insertUnit (unit : UnitMark) :
    Takes d t (marks + unit.tests.length) (insertUnit d.path i unit) := by
  unfold Document.insertUnit
  cases result : i.tree.addSuite unit.name d.path unit.line with
  | ok parts =>
    obtain ⟨t', s⟩ := parts
    have ⟨tests, suites⟩ := Tree.testCount_addSuite result
    obtain ⟨-, -, rest⟩ := Tree.addSuite_ok result
    have opened : Takes d t marks
        { i with tree := t', found := { i.found with suites := i.found.suites + 1 } } := by
      constructor
      case unskipped => exact takes.unskipped
      case found => rw [takes.found]
      case testCount => rw [tests, takes.testCount]
      case suiteCount =>
        rw [suites, takes.suiteCount]
        rfl
    exact opened.insertTests ⟨s, by simp [rest], rfl⟩ unit.tests
  | error error =>
    obtain ⟨rfl, there⟩ := Tree.addSuite_error result
    exact (takes.note rfl).insertTests there unit.tests

theorem insertUnits (units : List UnitMark) :
    Takes d t (marks + (units.map (·.tests.length)).foldr (· + ·) 0)
      (units.foldl (Document.insertUnit d.path) i) := by
  induction units generalizing marks i with
  | nil => exact takes
  | cons unit rest ih =>
    have later := ih (takes.insertUnit unit)
    rwa [Nat.add_assoc] at later

end Insertion.Takes

theorem Document.insertInto_takes (d : Document) (t : Tree) :
    Insertion.Takes d t d.testCount (d.insertInto t) := by
  have start : Insertion.Takes d t 0
      { tree := t, found := { path := d.path, suites := 0, tests := 0, warnings := d.warnings },
        notices := d.warnings.map .malformed } := by
    constructor <;> simp [Notice.isSkip]
  have all := start.insertUnits d.units
  rwa [Nat.zero_add] at all

/-- Insertion loses nothing, whatever the tree and the document are and whichever identifiers meet.
No unit and no test is skipped, all tests enter and are counted, and what stood in the tree stays at
its place with its tests in front of new ones. -/
theorem Document.insertInto_loses_nothing (d : Document) (t : Tree) :
    let i := d.insertInto t
    (∀ n ∈ i.notices, n.isSkip = false) ∧
      i.found.path = d.path ∧ i.found.tests = d.testCount ∧ i.found.warnings = d.warnings ∧
      i.tree.testCount = t.testCount + d.testCount ∧
      i.tree.suiteCount = t.suiteCount + i.found.suites ∧
      t.Grows i.tree := by
  intro i
  have takes := d.insertInto_takes t
  refine ⟨takes.unskipped, ?_, ?_, ?_, takes.testCount, takes.suiteCount, .insertInto t d⟩ <;>
    rw [takes.found]

-- The unit joins a suite of another document, whose test has taken the identifier of its test.
example :
    let p := Path.ofString "/ws/a.pl"
    let q := Path.ofString "/ws/a.pl:b.pl"
    let t := ((Document.scan p ":- begin_tests(b.pl:x).\ntest(b.pl:t).\n").insertInto {}).tree
    let i := (Document.scan q ":- begin_tests(x).\ntest(t).\n").insertInto t
    i.found = ⟨q, 0, 1, []⟩ ∧ i.tree.tests.map (·.id.text) =
      ["test:/ws/a.pl:b.pl:t", "test:/ws/a.pl:b.pl:t#2"] := by decide

end TestExplorer
