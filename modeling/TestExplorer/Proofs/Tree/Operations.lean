import TestExplorer.Proofs.Tree.Contents

set_option autoImplicit false

namespace TestExplorer

inductive Operation where
  | addSuite (name : String) (path : Path) (line : Nat)
  | addTest (suite : SuiteId) (name : String) (path : Path) (line : Nat)
  | addTestWithId (suite : SuiteId) (id : TestId) (name : String) (path : Path) (line : Nat)
  | insert (document : Document)
  | remove (path : Path)
  | clear

inductive Operation.Reply where
  | suite (s : Suite)
  | test (x : Test)
  | found (f : Found)
  | removed (count : Nat)
  | cleared
  deriving DecidableEq

namespace Operation

def edit : Operation → TreeEdit Reply
  | addSuite name path line => .suite <$> TreeEdit.addSuite name path line
  | addTest suite name path line => .test <$> TreeEdit.addTest suite name path line
  | addTestWithId suite id name path line =>
    .test <$> TreeEdit.addTestWithId suite id name path line
  | insert document => do
    let i := document.insertInto (← get)
    set i.tree
    return .found i.found
  | remove path => .removed <$> TreeEdit.removeDocument path
  | clear => (fun _ => .cleared) <$> TreeEdit.clear

def perform (t : Tree) (op : Operation) : Except TreeError Reply × Tree :=
  op.edit.run.run t

def performAll (ops : List Operation) : Tree :=
  ops.foldl (fun t op => (op.perform t).2) {}

-- A taken identifier is found out first, so an absent suite is named only for a free one.
def RefusesTest (t : Tree) (suite : SuiteId) (id : TestId) (error : TreeError) : Prop :=
  (error = .duplicateKey id.text ∧ ∃ x ∈ t.tests, x.id = id) ∨
    (error = .unknownSuite suite.text ∧ (∀ x ∈ t.tests, x.id ≠ id) ∧
      ∀ s ∈ t.suites, s.id ≠ suite)

def Refuses (t : Tree) (error : TreeError) : Operation → Prop
  | addSuite name path _ =>
    error = .duplicateKey (SuiteId.of path name).text ∧
      ∃ s ∈ t.suites, s.id = SuiteId.of path name
  | addTest suite name path _ => RefusesTest t suite (TestId.of path name) error
  | addTestWithId suite id _ _ _ => RefusesTest t suite id error
  | insert _ => False
  | remove _ => False
  | clear => False

end Operation

namespace Tree

theorem addSuite_error_iff (t : Tree) (name : String) (path : Path) (line : Nat)
    (error : TreeError) :
    t.addSuite name path line = .error error ↔
      error = .duplicateKey (SuiteId.of path name).text ∧
        ∃ s ∈ t.suites, s.id = SuiteId.of path name := by
  constructor
  case mp => exact addSuite_error
  case mpr =>
    rintro ⟨rfl, taken⟩
    rw [← suite?_isSome_iff] at taken
    simp [addSuite_eq, taken]

theorem addTestWithId_error_iff (t : Tree) (suite : SuiteId) (id : TestId) (name : String)
    (path : Path) (line : Nat) (error : TreeError) :
    t.addTestWithId suite id name path line = .error error ↔
      Operation.RefusesTest t suite id error := by
  simp only [addTestWithId_eq, Operation.RefusesTest]
  by_cases taken : t.hasTest id
  case pos =>
    have there := (t.hasTest_iff id).1 taken
    have notFree : ¬ ∀ x ∈ t.tests, x.id ≠ id := by simpa using there
    simp only [taken, if_true, there, notFree, Except.error.injEq, eq_comm (b := error)]
    simp only [and_true, false_and, and_false, or_false]
  case neg =>
    have free : ∀ x ∈ t.tests, x.id ≠ id := by simpa [hasTest_iff] using taken
    have notThere : ¬ ∃ x ∈ t.tests, x.id = id := by simpa using free
    cases appended : appendTest suite { id, name, path, line, suite } t.suites with
    | none =>
      have absent := (appendTest_eq_none_iff _ _ _).1 appended
      have reason : (∀ x ∈ t.tests, x.id ≠ id) ∧ ∀ s ∈ t.suites, s.id ≠ suite := ⟨free, absent⟩
      simpa [taken, notThere, eq_comm (b := error)] using fun _ => reason
    | some suites =>
      obtain ⟨before, s, after, parts, holds, -⟩ := appendTest_eq_some appended
      have present : ¬ ∀ s ∈ t.suites, s.id ≠ suite :=
        fun absent => absent s (by simp [parts]) holds
      simp [taken, notThere, present]

end Tree

namespace TreeEdit

variable {α β : Type}

theorem run_map (f : α → β) (edit : TreeEdit α) (t : Tree) :
    (f <$> edit).run.run t = ((edit.run.run t).1.map f, (edit.run.run t).2) := by
  rw [ExceptT.run_map, StateT.run_map]
  rfl

theorem on_eq_error_iff {edit : TreeEdit α} {t : Tree} {error : TreeError} :
    edit.on t = .error error ↔ (edit.run.run t).1 = .error error := by
  rw [on]
  split <;> simp_all

theorem map_eq_error_iff {f : α → β} {edit : TreeEdit α} {t : Tree} {error : TreeError} :
    ((f <$> edit).run.run t).1 = .error error ↔ edit.on t = .error error := by
  rw [run_map, on_eq_error_iff]
  cases (edit.run.run t).1 <;> simp [Except.map]

theorem on_of_map {f : α → β} {edit : TreeEdit α} {t : Tree} {b : β}
    (done : ((f <$> edit).run.run t).1 = .ok b) :
    ∃ a, edit.on t = .ok (((f <$> edit).run.run t).2, a) := by
  rw [run_map] at done ⊢
  cases answer : (edit.run.run t).1 with
  | error error => simp [answer, Except.map] at done
  | ok a =>
    refine ⟨a, ?_⟩
    rw [on]
    split <;> simp_all

/-- An error comes before anything has changed. -/
def Checked (edit : TreeEdit α) : Prop :=
  ∀ t error, (edit.run.run t).1 = .error error → (edit.run.run t).2 = t

theorem Checked.map {edit : TreeEdit α} (checked : edit.Checked) (f : α → β) :
    Checked (f <$> edit) := by
  intro t error refused
  rw [run_map] at refused ⊢
  cases answer : (edit.run.run t).1 with
  | ok a => simp [answer, Except.map] at refused
  | error error => exact checked t error answer

theorem checked_addSuite (name : String) (path : Path) (line : Nat) :
    (addSuite name path line).Checked := by
  intro t error refused
  rw [run_addSuite] at refused ⊢
  split at refused
  next taken => rw [if_pos taken]
  next => contradiction

theorem checked_addTestWithId (suite : SuiteId) (id : TestId) (name : String) (path : Path)
    (line : Nat) : (addTestWithId suite id name path line).Checked := by
  intro t error refused
  rw [run_addTestWithId] at refused ⊢
  split at refused
  next taken => rw [if_pos taken]
  next free =>
    rw [if_neg free]
    dsimp only at refused ⊢
    cases appended : Tree.appendTest suite { id, name, path, line, suite } t.suites with
    | none => rfl
    | some suites => simp [appended] at refused

end TreeEdit

namespace Operation

theorem refused_iff (t : Tree) (op : Operation) (error : TreeError) :
    (op.perform t).1 = .error error ↔ op.Refuses t error := by
  cases op with
  | addSuite name path line =>
    exact TreeEdit.map_eq_error_iff.trans (t.addSuite_error_iff name path line error)
  | addTest suite name path line =>
    exact TreeEdit.map_eq_error_iff.trans (t.addTestWithId_error_iff suite _ name path line error)
  | addTestWithId suite id name path line =>
    exact TreeEdit.map_eq_error_iff.trans (t.addTestWithId_error_iff suite id name path line error)
  | insert document => exact iff_of_false (by rintro ⟨⟩) id
  | remove path => exact iff_of_false (by rintro ⟨⟩) id
  | clear => exact iff_of_false (by rintro ⟨⟩) id

theorem checked_edit (op : Operation) : op.edit.Checked := by
  cases op with
  | addSuite name path line => exact (TreeEdit.checked_addSuite name path line).map _
  | addTest suite name path line =>
    exact (TreeEdit.checked_addTestWithId suite (TestId.of path name) name path line).map _
  | addTestWithId suite id name path line =>
    exact (TreeEdit.checked_addTestWithId suite id name path line).map _
  | insert document => rintro t error ⟨⟩
  | remove path => rintro t error ⟨⟩
  | clear => rintro t error ⟨⟩

theorem unchanged_of_error {t : Tree} {op : Operation} {error : TreeError}
    (refused : (op.perform t).1 = .error error) : (op.perform t).2 = t :=
  op.checked_edit t error refused

theorem perform_induction {P : Tree → Prop} {t : Tree} (holds : P t) (op : Operation)
    (addSuite : ∀ name path line t' s, t.addSuite name path line = .ok (t', s) → P t')
    (addTest : ∀ suite id name path line t' x,
      op = .addTestWithId suite id name path line ∨
        op = .addTest suite name path line ∧ id = TestId.of path name →
      t.addTestWithId suite id name path line = .ok (t', x) → P t')
    (insert : ∀ d : Document, P (d.insertInto t).tree)
    (remove : ∀ path, P (t.removeDocument path)) (clear : P {}) :
    P (op.perform t).2 := by
  cases answer : (op.perform t).1 with
  | error error => rwa [unchanged_of_error answer]
  | ok reply =>
    cases op with
    | addSuite name path line =>
      obtain ⟨s, added⟩ := TreeEdit.on_of_map answer
      exact addSuite name path line _ s added
    | addTest suite name path line =>
      obtain ⟨x, added⟩ := TreeEdit.on_of_map answer
      exact addTest suite _ name path line _ x (.inr ⟨rfl, rfl⟩) added
    | addTestWithId suite id name path line =>
      obtain ⟨x, added⟩ := TreeEdit.on_of_map answer
      exact addTest suite id name path line _ x (.inl rfl) added
    | insert document => exact insert document
    | remove path => exact remove path
    | clear => exact clear

end Operation

namespace Tree

theorem Reachable.perform {t : Tree} (reachable : t.Reachable) (op : Operation) :
    (op.perform t).2.Reachable :=
  op.perform_induction reachable (fun _ _ _ _ _ => reachable.addSuite)
    (fun _ _ _ _ _ _ _ _ => reachable.addTestWithId) reachable.insertInto
    reachable.removeDocument .empty

theorem reachable_performAll (ops : List Operation) : (Operation.performAll ops).Reachable :=
  List.foldlRecOn (motive := Reachable) ops _ .empty fun _ reachable op _ => reachable.perform op

end Tree

namespace Operation

/-- After any operations no two suites and no two tests have one identifier, a test names the suite
that holds it, and a suite's identifier is made of its path and its name. The next operation is
refused exactly for a taken identifier or an absent suite, and then leaves the tree as it was. -/
theorem performAll_keeps_keys (ops : List Operation) (op : Operation) (error : TreeError) :
    let t := performAll ops
    (t.suites.map (·.id)).Nodup ∧
      ((t.suites.flatMap (·.tests)).map (·.id)).Nodup ∧
      (∀ s ∈ t.suites, ∀ x ∈ s.tests, x.suite = s.id) ∧
      (∀ s ∈ t.suites, s.id = SuiteId.of s.path s.name) ∧
      ((op.perform t).1 = .error error ↔ op.Refuses t error) ∧
      ((op.perform t).1 = .error error → (op.perform t).2 = t) := by
  intro t
  have formed : t.WellFormed := (Tree.reachable_performAll ops).wellFormed
  exact ⟨formed.suiteIds, formed.testIds, formed.owners, formed.keys, refused_iff t op error,
    unchanged_of_error⟩

theorem performAll_keeps_keys_taken_ordinal :
    let p := Path.ofString "/ws/a.pl"
    let ops := [
      .insert (Document.scan p ":- begin_tests(u).\ntest(x#2).\ntest(x).\ntest(x).\n"),
      .addTest (SuiteId.of p "v") "y" p 7, .addSuite "v" p 9]
    let t := performAll ops
    let again := addTest (SuiteId.of p "v") "x" p 10
    t.suites.map (·.name) = ["u", "v"] ∧
      t.tests.map (·.id.text) = ["test:/ws/a.pl:x#2", "test:/ws/a.pl:x", "test:/ws/a.pl:x#3"] ∧
      (t.tests.map (·.id)).Nodup ∧ again.Refuses t (.duplicateKey "test:/ws/a.pl:x") ∧
      (again.perform t).2 = t := by
  intro p ops t again
  obtain ⟨-, distinct, -, -, refused, unchanged⟩ :=
    performAll_keeps_keys ops again (.duplicateKey "test:/ws/a.pl:x")
  have taken : (again.perform t).1 = .error (.duplicateKey "test:/ws/a.pl:x") := by decide
  exact ⟨by decide, by decide, distinct, refused.1 taken, unchanged taken⟩

end Operation

end TestExplorer
