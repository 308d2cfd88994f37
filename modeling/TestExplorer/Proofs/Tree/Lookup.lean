import TestExplorer.Proofs.Tree.Operations
import TestExplorer.Proofs.Tree.Separation

set_option autoImplicit false

namespace TestExplorer

namespace Search

variable {α β : Type} {xs : List α} {x : α}

theorem find?_of_unique {p : α → Bool} (member : x ∈ xs) (fits : p x)
    (unique : ∀ y ∈ xs, p y → y = x) : xs.find? p = some x := by
  have found : (xs.find? p).isSome := List.find?_isSome.2 ⟨x, member, fits⟩
  obtain ⟨y, same⟩ := Option.isSome_iff_exists.1 found
  rw [same, unique y (List.mem_of_find?_eq_some same) (List.find?_some same)]

theorem findSome?_of_unique {f : α → Option β} {b : β} (member : x ∈ xs) (found : f x = some b)
    (unique : ∀ y ∈ xs, (f y).isSome → y = x) : xs.findSome? f = some b := by
  induction xs with
  | nil => contradiction
  | cons y rest ih =>
    by_cases here : (f y).isSome
    · rw [unique y List.mem_cons_self here, List.findSome?_cons_of_isSome] <;> simp [found]
    · have later : x ∈ rest := by
        rcases List.mem_cons.1 member with rfl | later
        · simp [found] at here
        · exact later
      rw [List.findSome?_cons_of_isNone (by simpa using here)]
      exact ih later fun z inside => unique z (List.mem_cons_of_mem _ inside)

theorem flatMap_of_unique {f : α → List β} (distinct : xs.Nodup) (member : x ∈ xs)
    (others : ∀ y ∈ xs, y ≠ x → f y = []) : xs.flatMap f = f x := by
  obtain ⟨before, after, rfl⟩ := List.append_of_mem member
  obtain ⟨-, later, apart⟩ := List.nodup_append.1 distinct
  have nothingBefore : before.flatMap f = [] := List.flatMap_eq_nil_iff.2 fun y inside =>
    others y (by simp [inside]) (apart y inside x List.mem_cons_self)
  have nothingAfter : after.flatMap f = [] := List.flatMap_eq_nil_iff.2 fun y inside =>
    others y (by simp [inside]) fun same => (List.nodup_cons.1 later).1 (same ▸ inside)
  simp [nothingBefore, nothingAfter]

theorem filter_of_unique [DecidableEq α] {p : α → Bool} (distinct : xs.Nodup) (member : x ∈ xs)
    (fits : p x) (unique : ∀ y ∈ xs, p y → y = x) : xs.filter p = [x] := by
  have only : xs.filter p = xs.filter (· = x) := List.filter_congr fun y inside => by
    rw [Bool.eq_iff_iff, decide_eq_true_iff]
    exact ⟨unique y inside, fun same => same ▸ fits⟩
  rw [only, List.filter_eq, List.count_eq_one_of_mem distinct member, List.replicate_one]

end Search

/-! ## What operations build -/

def TestId.IsIssued (id : TestId) : Prop :=
  ∃ path name ordinal, id = TestId.of path name ordinal

def Operation.IsIssued : Operation → Prop
  | .addTestWithId _ id _ _ _ => id.IsIssued
  | _ => True

/-- Operations on the empty tree have come to this one. -/
def Tree.Operated (t : Tree) : Prop :=
  ∃ ops : List Operation, (∀ op ∈ ops, op.IsIssued) ∧ Operation.performAll ops = t

namespace Tree

def AllIssued (t : Tree) : Prop :=
  ∀ x ∈ t.tests, x.id.IsIssued

structure Keyed (t : Tree) : Prop extends t.WellFormed where
  issued : t.AllIssued

namespace AllIssued

variable {t t' : Tree}

theorem addSuite (issued : t.AllIssued) {name : String} {path : Path} {line : Nat} {s : Suite}
    (added : t.addSuite name path line = .ok (t', s)) : t'.AllIssued := by
  obtain ⟨-, rfl, rfl⟩ := addSuite_ok added
  simpa [AllIssued, tests] using issued

theorem addTestWithId (issued : t.AllIssued) {suite : SuiteId} {id : TestId} {name : String}
    {path : Path} {line : Nat} {x : Test} (good : id.IsIssued)
    (added : t.addTestWithId suite id name path line = .ok (t', x)) : t'.AllIssued := by
  obtain ⟨-, new, -⟩ := addTestWithId_ok added
  intro y member
  rcases List.mem_cons.1 ((tests_addTestWithId added).mem_iff.1 member) with rfl | old
  · rw [new]
    exact good
  · exact issued y old

theorem insertInto (issued : t.AllIssued) (d : Document) : (d.insertInto t).tree.AllIssued := by
  refine d.insertInto_induction t issued (fun _ _ _ _ _ issued added => issued.addSuite added) ?_
  intro t t' x unit _ mark _ issued added
  obtain ⟨k, -, -, found, -⟩ := t.freeTestId_least d.path mark.name
  exact issued.addTestWithId ⟨d.path, mark.name, k, found⟩ added

theorem removeDocument (issued : t.AllIssued) (path : Path) :
    (t.removeDocument path).AllIssued := by
  intro x member
  obtain ⟨s, kept, held⟩ := (mem_tests _ x).1 member
  exact issued x ((mem_tests t x).2 ⟨s, (mem_removeDocument.1 kept).1, held⟩)

theorem perform (issued : t.AllIssued) {op : Operation} (good : op.IsIssued) :
    (op.perform t).2.AllIssued := by
  refine op.perform_induction issued (fun _ _ _ _ _ => issued.addSuite) ?tests issued.insertInto
    issued.removeDocument (by simp [AllIssued, tests])
  rintro suite id name path line t' x (rfl | ⟨-, rfl⟩) added
  · exact issued.addTestWithId good added
  · exact issued.addTestWithId ⟨path, name, 1, rfl⟩ added

end AllIssued

theorem Operated.keyed {t : Tree} (operated : t.Operated) : t.Keyed := by
  obtain ⟨ops, good, rfl⟩ := operated
  have issued : (Operation.performAll ops).AllIssued :=
    List.foldlRecOn (motive := AllIssued) ops _ (by simp [AllIssued, tests])
      fun _ issued op known => issued.perform (good op known)
  exact { (reachable_performAll ops).wellFormed with issued }

theorem operated_discovered (ds : List Document) : (discovered ds).Operated := by
  refine ⟨ds.map .insert, by simp [Operation.IsIssued], ?_⟩
  rw [Operation.performAll, List.foldl_map]
  rfl

end Tree

/-! ## Texts of identifiers -/

@[simp] theorem SuiteId.text_inj {a b : SuiteId} : a.text = b.text ↔ a = b := by
  cases a
  cases b
  simp

@[simp] theorem TestId.text_inj {a b : TestId} : a.text = b.text ↔ a = b := by
  cases a
  cases b
  simp

theorem SuiteId.opens (p : Path) (name : String) :
    "suite:".toList <+: (SuiteId.of p name).text.toList := by
  simp [SuiteId.of]

theorem TestId.IsIssued.opens {id : TestId} (issued : id.IsIssued) :
    "test:".toList <+: id.text.toList := by
  obtain ⟨p, name, k, rfl⟩ := issued
  simp [TestId.text_of]

theorem not_opens_both {text : List Char} (suite : "suite:".toList <+: text) :
    ¬ "test:".toList <+: text := by
  intro test
  obtain ⟨rest, rfl⟩ := suite
  simp at test

namespace Tree

variable {t : Tree}

theorem WellFormed.test_unique (formed : t.WellFormed) {s s' : Suite} {x y : Test}
    (member : s ∈ t.suites) (held : x ∈ s.tests) (member' : s' ∈ t.suites) (held' : y ∈ s'.tests)
    (same : y.id = x.id) : y = x ∧ s' = s := by
  have inside : x ∈ t.tests := (mem_tests t x).2 ⟨s, member, held⟩
  have inside' : y ∈ t.tests := (mem_tests t y).2 ⟨s', member', held'⟩
  obtain rfl : y = x := List.inj_on_of_nodup_map formed.testIds inside' inside same
  have owner : s'.id = s.id := by
    rw [← formed.owners s' member' y held', formed.owners s member y held]
  exact ⟨rfl, formed.suite_unique member' member owner⟩

theorem WellFormed.suite?_eq (formed : t.WellFormed) {s : Suite} (member : s ∈ t.suites) :
    t.suite? s.id = some s :=
  Search.find?_of_unique member (by simp) fun s' member' same =>
    formed.suite_unique member' member (by simpa using same)

theorem WellFormed.test?_eq (formed : t.WellFormed) {s : Suite} {x : Test} (member : s ∈ t.suites)
    (held : x ∈ s.tests) : t.test? x.id = some (x, s) := by
  have inside : s.test? x.id = some x :=
    Search.find?_of_unique held (by simp) fun y held' same =>
      (formed.test_unique member held member held' (by simpa using same)).1
  refine Search.findSome?_of_unique member (by rw [inside]; rfl) fun s' member' found => ?_
  have found' : (s'.test? x.id).isSome := by simpa using found
  obtain ⟨y, held', same⟩ := List.find?_isSome.1 found'
  exact (formed.test_unique member held member' held' (by simpa using same)).2

namespace Keyed

variable (keyed : t.Keyed)

include keyed

theorem opens_suite {s : Suite} (member : s ∈ t.suites) :
    "suite:".toList <+: s.id.text.toList := by
  rw [keyed.keys s member]
  exact SuiteId.opens s.path s.name

theorem opens_test {s : Suite} {x : Test} (member : s ∈ t.suites) (held : x ∈ s.tests) :
    "test:".toList <+: x.id.text.toList :=
  (keyed.issued x ((mem_tests t x).2 ⟨s, member, held⟩)).opens

theorem suite_ne_test {s s' : Suite} {x : Test} (member : s ∈ t.suites) (member' : s' ∈ t.suites)
    (held : x ∈ s'.tests) : s.id.text ≠ x.id.text := by
  intro same
  have suite := keyed.opens_suite member
  rw [same] at suite
  exact not_opens_both suite (keyed.opens_test member' held)

theorem find?_suite {s : Suite} (member : s ∈ t.suites) :
    t.find? s.id.text = some (.suite s) := by
  have found : t.suites.find? (·.id.text = s.id.text) = some s :=
    Search.find?_of_unique member (by simp) fun s' member' same =>
      keyed.suite_unique member' member (by simpa using same)
  rw [find?, if_pos (List.isPrefixOf_iff_prefix.2 (keyed.opens_suite member)), found]
  rfl

theorem find?_test {s : Suite} {x : Test} (member : s ∈ t.suites) (held : x ∈ s.tests) :
    t.find? x.id.text = some (.test x s) := by
  have opens := keyed.opens_test member held
  have other : ¬ "suite:".toList <+: x.id.text.toList := fun suite => not_opens_both suite opens
  have inside : s.tests.find? (·.id.text = x.id.text) = some x :=
    Search.find?_of_unique held (by simp) fun y held' same =>
      (keyed.test_unique member held member held' (by simpa using same)).1
  rw [find?, if_neg (mt List.isPrefixOf_iff_prefix.1 other),
    if_pos (List.isPrefixOf_iff_prefix.2 opens)]
  refine Search.findSome?_of_unique member (by rw [inside]; rfl) fun s' member' found => ?_
  have found' : (s'.tests.find? (·.id.text = x.id.text)).isSome := by simpa using found
  obtain ⟨y, held', same⟩ := List.find?_isSome.1 found'
  exact (keyed.test_unique member held member' held' (by simpa using same)).2

end Keyed

theorem find?_eq_none {id : String} (suites : ∀ s ∈ t.suites, s.id.text ≠ id)
    (tests : ∀ s ∈ t.suites, ∀ x ∈ s.tests, x.id.text ≠ id) : t.find? id = none := by
  unfold find?
  split
  · simpa using suites
  · split
    · simpa using tests
    · rfl

end Tree

end TestExplorer
