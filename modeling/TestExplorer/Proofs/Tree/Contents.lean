import Mathlib.Data.List.Flatten
import Mathlib.Data.List.Nodup
import Mathlib.Data.List.Perm.Basic
import TestExplorer.Tree.Insertion

set_option autoImplicit false

namespace TestExplorer

/-! ## Edits -/

namespace TreeEdit

theorem run_get {α : Type} (next : Tree → TreeEdit α) (t : Tree) :
    (get >>= next).run.run t = (next t).run.run t :=
  rfl

theorem run_addSuite (name : String) (path : Path) (line : Nat) (t : Tree) :
    (addSuite name path line).run.run t =
      if (t.suite? (SuiteId.of path name)).isSome then
        (.error (.duplicateKey (SuiteId.of path name).text), t)
      else
        let suite : Suite := { id := SuiteId.of path name, name, path, line, tests := [] }
        (.ok suite, ⟨t.suites ++ [suite]⟩) := by
  rw [addSuite, run_get]
  split <;> rfl

theorem run_addTestWithId (suite : SuiteId) (id : TestId) (name : String) (path : Path)
    (line : Nat) (t : Tree) :
    (addTestWithId suite id name path line).run.run t =
      if t.hasTest id then (.error (.duplicateKey id.text), t)
      else
        let test : Test := { id, name, path, line, suite }
        match Tree.appendTest suite test t.suites with
        | some suites => (.ok test, ⟨suites⟩)
        | none => (.error (.unknownSuite suite.text), t) := by
  rw [addTestWithId, run_get]
  split
  next => rfl
  next =>
    rw [run_get]
    dsimp only
    generalize Tree.appendTest suite { id, name, path, line, suite } t.suites = appended
    cases appended <;> rfl

end TreeEdit

namespace Tree

theorem addSuite_eq (t : Tree) (name : String) (path : Path) (line : Nat) :
    t.addSuite name path line =
      if (t.suite? (SuiteId.of path name)).isSome then
        .error (.duplicateKey (SuiteId.of path name).text)
      else
        let suite : Suite := { id := SuiteId.of path name, name, path, line, tests := [] }
        .ok (⟨t.suites ++ [suite]⟩, suite) := by
  rw [addSuite, TreeEdit.on, TreeEdit.run_addSuite]
  cases (t.suite? (SuiteId.of path name)).isSome <;> rfl

theorem addTestWithId_eq (t : Tree) (suite : SuiteId) (id : TestId) (name : String) (path : Path)
    (line : Nat) :
    t.addTestWithId suite id name path line =
      if t.hasTest id then .error (.duplicateKey id.text)
      else
        let test : Test := { id, name, path, line, suite }
        match appendTest suite test t.suites with
        | some suites => .ok (⟨suites⟩, test)
        | none => .error (.unknownSuite suite.text) := by
  rw [addTestWithId, TreeEdit.on, TreeEdit.run_addTestWithId]
  cases t.hasTest id with
  | true => rfl
  | false =>
    dsimp only
    cases appendTest suite { id, name, path, line, suite } t.suites <;> rfl

/-! ## Suites and tests -/

def tests (t : Tree) : List Test :=
  t.suites.flatMap (·.tests)

theorem mem_tests (t : Tree) (x : Test) : x ∈ t.tests ↔ ∃ s ∈ t.suites, x ∈ s.tests := by
  simp [tests]

theorem tests_sublist {t : Tree} {s : Suite} (member : s ∈ t.suites) :
    s.tests.Sublist t.tests := by
  rw [tests, List.flatMap_def]
  exact List.sublist_flatten_of_mem (List.mem_map_of_mem member)

theorem testCount_eq (t : Tree) : t.testCount = t.tests.length := by
  simp [testCount, tests, List.length_flatMap, List.sum_eq_foldr]

theorem suite?_isSome_iff (t : Tree) (id : SuiteId) :
    (t.suite? id).isSome ↔ ∃ s ∈ t.suites, s.id = id := by
  simp [suite?]

theorem hasTest_iff (t : Tree) (id : TestId) : t.hasTest id ↔ ∃ x ∈ t.tests, x.id = id := by
  simp [hasTest, test?, Suite.test?, tests, List.findSome?_isSome_iff]
  grind

theorem addSuite_ok {t t' : Tree} {name : String} {path : Path} {line : Nat} {s : Suite}
    (added : t.addSuite name path line = .ok (t', s)) :
    (∀ old ∈ t.suites, old.id ≠ SuiteId.of path name) ∧
      s = { id := SuiteId.of path name, name, path, line, tests := [] } ∧
        t' = ⟨t.suites ++ [s]⟩ := by
  simp only [addSuite_eq] at added
  split at added
  next => contradiction
  next absent =>
    rw [suite?_isSome_iff] at absent
    simp only [Except.ok.injEq, Prod.mk.injEq] at added
    obtain ⟨rfl, rfl⟩ := added
    exact ⟨fun old member same => absent ⟨old, member, same⟩, rfl, rfl⟩

theorem mem_addSuite {t t' : Tree} {name : String} {path : Path} {line : Nat} {s s' : Suite}
    (added : t.addSuite name path line = .ok (t', s)) (member : s' ∈ t'.suites) :
    s' ∈ t.suites ∨ s' = { id := SuiteId.of path name, name, path, line, tests := [] } := by
  obtain ⟨-, rfl, rfl⟩ := addSuite_ok added
  simpa using member

theorem addSuite_error {t : Tree} {name : String} {path : Path} {line : Nat} {error : TreeError}
    (refused : t.addSuite name path line = .error error) :
    error = .duplicateKey (SuiteId.of path name).text ∧
      ∃ old ∈ t.suites, old.id = SuiteId.of path name := by
  simp only [addSuite_eq] at refused
  split at refused
  next present => exact ⟨(Except.error.inj refused).symm, (suite?_isSome_iff t _).1 present⟩
  next => contradiction

theorem appendTest_eq_none_iff (owner : SuiteId) (x : Test) (suites : List Suite) :
    appendTest owner x suites = none ↔ ∀ s ∈ suites, s.id ≠ owner := by
  induction suites with
  | nil => simp [appendTest]
  | cons s rest ih => by_cases here : s.id = owner <;> simp [appendTest, here, ih]

theorem appendTest_eq_some {owner : SuiteId} {x : Test} {suites suites' : List Suite}
    (appended : appendTest owner x suites = some suites') :
    ∃ before s after, suites = before ++ s :: after ∧ s.id = owner ∧
      suites' = before ++ { s with tests := s.tests ++ [x] } :: after := by
  induction suites generalizing suites' with
  | nil => contradiction
  | cons s rest ih =>
    unfold appendTest at appended
    split at appended
    next here => exact ⟨[], s, rest, rfl, here, (Option.some.inj appended).symm⟩
    next =>
      obtain ⟨inner, found, rfl⟩ := Option.map_eq_some_iff.1 appended
      obtain ⟨before, holder, after, rfl, holds, rfl⟩ := ih found
      exact ⟨s :: before, holder, after, rfl, holds, rfl⟩

theorem addTestWithId_ok {t t' : Tree} {suite : SuiteId} {id : TestId} {name : String}
    {path : Path} {line : Nat} {x : Test}
    (added : t.addTestWithId suite id name path line = .ok (t', x)) :
    (∀ old ∈ t.tests, old.id ≠ id) ∧ x = { id, name, path, line, suite } ∧
      ∃ before s after, t.suites = before ++ s :: after ∧ s.id = suite ∧
        t' = ⟨before ++ { s with tests := s.tests ++ [x] } :: after⟩ := by
  simp only [addTestWithId_eq] at added
  split at added
  next => contradiction
  next absent =>
    rw [hasTest_iff] at absent
    split at added
    next suites appended =>
      obtain ⟨before, s, after, split, holds, rfl⟩ := appendTest_eq_some appended
      simp only [Except.ok.injEq, Prod.mk.injEq] at added
      obtain ⟨rfl, rfl⟩ := added
      exact ⟨fun old member same => absent ⟨old, member, same⟩, rfl, before, s, after, split,
        holds, rfl⟩
    next => contradiction

-- A suite stands in the tree after a test has been added as it stood there before, but for the
-- test, which only the suite with the given key takes.
theorem mem_addTestWithId {t t' : Tree} {suite : SuiteId} {id : TestId} {name : String}
    {path : Path} {line : Nat} {x : Test}
    (added : t.addTestWithId suite id name path line = .ok (t', x)) {s' : Suite}
    (member : s' ∈ t'.suites) :
    ∃ s ∈ t.suites, s'.id = s.id ∧ s'.name = s.name ∧ s'.path = s.path ∧
      ∀ y ∈ s'.tests, y ∈ s.tests ∨ y = x ∧ s.id = suite := by
  obtain ⟨-, -, before, s, after, parts, holds, rfl⟩ := addTestWithId_ok added
  have unchanged (old : s' ∈ t.suites) : ∃ s ∈ t.suites, s'.id = s.id ∧ s'.name = s.name ∧
      s'.path = s.path ∧ ∀ y ∈ s'.tests, y ∈ s.tests ∨ y = x ∧ s.id = suite :=
    ⟨s', old, rfl, rfl, rfl, fun _ held => .inl held⟩
  rcases List.mem_append.1 member with old | old
  · exact unchanged (by simp [parts, old])
  · rcases List.mem_cons.1 old with rfl | old
    · refine ⟨s, by simp [parts], rfl, rfl, rfl, fun y held => ?_⟩
      simpa [holds] using held
    · exact unchanged (by simp [parts, old])

theorem tests_addTestWithId {t t' : Tree} {suite : SuiteId} {id : TestId} {name : String}
    {path : Path} {line : Nat} {x : Test}
    (added : t.addTestWithId suite id name path line = .ok (t', x)) :
    t'.tests.Perm (x :: t.tests) := by
  obtain ⟨-, -, before, s, after, parts, -, rest⟩ := addTestWithId_ok added
  simp only [tests, parts, rest, List.flatMap_append, List.flatMap_cons, List.append_assoc]
  grind

theorem mem_removeDocument {t : Tree} {path : Path} {s : Suite} :
    s ∈ (t.removeDocument path).suites ↔ s ∈ t.suites ∧ ¬ s.path.Same path := by
  simp [removeDocument]

structure WellFormed (t : Tree) : Prop where
  suiteIds : (t.suites.map (·.id)).Nodup
  testIds : (t.tests.map (·.id)).Nodup
  owners : ∀ s ∈ t.suites, ∀ x ∈ s.tests, x.suite = s.id
  keys : ∀ s ∈ t.suites, s.id = SuiteId.of s.path s.name

theorem wellFormed_empty : WellFormed {} := by
  constructor <;> simp [tests]

theorem WellFormed.addSuite {t t' : Tree} (formed : t.WellFormed) {name : String} {path : Path}
    {line : Nat} {s : Suite} (added : t.addSuite name path line = .ok (t', s)) :
    t'.WellFormed := by
  obtain ⟨fresh, new, rest⟩ := addSuite_ok added
  constructor
  next => simpa [rest, new, List.nodup_append, formed.suiteIds] using fresh
  next => simpa [rest, new, tests] using formed.testIds
  next =>
    intro s' member
    rcases mem_addSuite added member with old | rfl
    · exact formed.owners s' old
    · simp
  next =>
    intro s' member
    rcases mem_addSuite added member with old | rfl
    · exact formed.keys s' old
    · rfl

theorem WellFormed.addTestWithId {t t' : Tree} (formed : t.WellFormed) {suite : SuiteId}
    {id : TestId} {name : String} {path : Path} {line : Nat} {x : Test}
    (added : t.addTestWithId suite id name path line = .ok (t', x)) : t'.WellFormed := by
  obtain ⟨fresh, new, before, s, after, parts, -, rest⟩ := addTestWithId_ok added
  have all := tests_addTestWithId added
  constructor
  next => simpa [parts, rest] using formed.suiteIds
  next =>
    rw [(all.map (·.id)).nodup_iff, List.map_cons, List.nodup_cons]
    refine ⟨?_, formed.testIds⟩
    simpa [new] using fresh
  next =>
    intro s' member y held
    obtain ⟨s, old, key, -, -, origin⟩ := mem_addTestWithId added member
    rw [key]
    rcases origin y held with old' | ⟨rfl, holds⟩
    · exact formed.owners s old y old'
    · rw [new, holds]
  next =>
    intro s' member
    obtain ⟨s, old, key, unit, home, -⟩ := mem_addTestWithId added member
    rw [key, unit, home]
    exact formed.keys s old

theorem WellFormed.removeDocument {t : Tree} (formed : t.WellFormed) (path : Path) :
    (t.removeDocument path).WellFormed := by
  have kept : (t.removeDocument path).suites.Sublist t.suites := List.filter_sublist
  constructor
  next => exact formed.suiteIds.sublist (kept.map _)
  next => exact formed.testIds.sublist ((kept.flatMap _).map _)
  next => exact fun s member => formed.owners s (kept.subset member)
  next => exact fun s member => formed.keys s (kept.subset member)

end Tree

@[simp] theorem Insertion.tree_note (i : Insertion) (n : Notice) : (i.note n).tree = i.tree := rfl

namespace Document

theorem tree_insertTest (path : Path) (suite : SuiteId) (i : Insertion) (mark : TestMark) :
    (insertTest path suite i mark).tree =
      match i.tree.addTestWithId suite (i.tree.freeTestId path mark.name) mark.name path
        mark.line with
      | .ok (tree, _) => tree
      | .error _ => i.tree := by
  unfold insertTest
  by_cases first : i.tree.freeTestId path mark.name = TestId.of path mark.name <;>
    simp only [first, if_true, if_false, Insertion.tree_note] <;> split <;> simp_all

-- What every step of an insertion keeps, the insertion keeps: a step adds a suite of one of the
-- units, or a test of one of them under the first free identifier.
theorem insertInto_induction {P : Tree → Prop} (d : Document) (t : Tree) (start : P t)
    (suite : ∀ t t' s, ∀ unit ∈ d.units, P t →
      t.addSuite unit.name d.path unit.line = .ok (t', s) → P t')
    (test : ∀ t t' x, ∀ unit ∈ d.units, ∀ mark ∈ unit.tests, P t →
      t.addTestWithId (SuiteId.of d.path unit.name) (t.freeTestId d.path mark.name) mark.name
        d.path mark.line = .ok (t', x) → P t') :
    P (d.insertInto t).tree := by
  have insertTests (unit : UnitMark) (known : unit ∈ d.units) (i : Insertion) (held : P i.tree) :
      P (unit.tests.foldl (insertTest d.path (SuiteId.of d.path unit.name)) i).tree := by
    refine List.foldlRecOn (motive := fun i : Insertion => P i.tree) unit.tests _ held ?_
    intro i held mark marked
    rw [tree_insertTest]
    split
    next tree x added => exact test _ _ x unit known mark marked held added
    next => exact held
  refine List.foldlRecOn (motive := fun i : Insertion => P i.tree) d.units _ start ?_
  intro i held unit known
  unfold insertUnit
  split
  next tree s added =>
    have named : s.id = SuiteId.of d.path unit.name := by rw [(Tree.addSuite_ok added).2.1]
    rw [named]
    exact insertTests unit known _ (suite _ _ s unit known held added)
  next => exact insertTests unit known _ held
  next => exact held

end Document

namespace Tree

theorem WellFormed.insertInto {t : Tree} (formed : t.WellFormed) (d : Document) :
    (d.insertInto t).tree.WellFormed :=
  d.insertInto_induction t formed (fun _ _ _ _ _ formed added => formed.addSuite added)
    fun _ _ _ _ _ _ _ formed added => formed.addTestWithId added

/-- The trees that the operations on trees can build. Clearing starts again with the empty one. -/
inductive Reachable : Tree → Prop where
  | empty : Reachable {}
  | addSuite {t t' : Tree} {name : String} {path : Path} {line : Nat} {s : Suite} :
    t.Reachable → t.addSuite name path line = .ok (t', s) → Reachable t'
  | addTestWithId {t t' : Tree} {suite : SuiteId} {id : TestId} {name : String} {path : Path}
      {line : Nat} {x : Test} :
    t.Reachable → t.addTestWithId suite id name path line = .ok (t', x) → Reachable t'
  | insertInto {t : Tree} (d : Document) : t.Reachable → Reachable (d.insertInto t).tree
  | removeDocument {t : Tree} (path : Path) : t.Reachable → Reachable (t.removeDocument path)

theorem Reachable.wellFormed {t : Tree} (reachable : t.Reachable) : t.WellFormed := by
  induction reachable with
  | empty => exact wellFormed_empty
  | addSuite _ added formed => exact formed.addSuite added
  | addTestWithId _ added formed => exact formed.addTestWithId added
  | insertInto d _ formed => exact formed.insertInto d
  | removeDocument path _ formed => exact formed.removeDocument path

end Tree

end TestExplorer
