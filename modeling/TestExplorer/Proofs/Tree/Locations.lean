import Mathlib.Data.Set.Function
import TestExplorer.Proofs.Scan.Spans
import TestExplorer.Proofs.Tree.Lookup
import TestExplorer.Proofs.Tree.Outline
import TestExplorer.Proofs.Tree.Part

set_option autoImplicit false

namespace TestExplorer

namespace Document

open UnitMark (marks)

def markItem (mark : TestMark) : ScanItem :=
  .event (.testCase mark.name mark.line)

-- The open span is a part of the statement, since a test marker may belong to a unit before it.
theorem markItems_sublist (items : List ScanItem) :
    ((spanTests items ++ marks (unitsOf items)).map markItem).Sublist items := by
  induction items with
  | nil => exact .slnil
  | cons item rest ih =>
    have closed : ((marks (unitsOf rest)).map markItem).Sublist rest :=
      ((List.sublist_append_right _ _).map markItem).trans ih
    cases item with
    | event e =>
      cases e with
      | suiteBegin name line => exact ih.cons _
      | suiteEnd line => exact closed.cons _
      | testCase name line => exact ih.cons_cons _
    | warning w =>
      by_cases opening : w.marker = .suiteBegin
      · simpa [spanTests, unitsOf, opening] using closed.cons (.warning w)
      · simpa [spanTests, unitsOf, opening] using ih.cons (.warning w)

theorem marks_scan_sublist (path : Path) (source : String) :
    ((marks (scan path source).units).map markItem).Sublist
      ((TestExplorer.scan source).map (·.item)) := by
  rw [units_scan]
  exact ((List.sublist_append_right _ _).map markItem).trans (markItems_sublist _)

theorem lines_marks_scan (path : Path) (source : String) :
    ((marks (scan path source).units).map (·.line)).Pairwise (· < ·) := by
  have kept := (marks_scan_sublist path source).map (·.line)
  rw [List.map_map] at kept
  exact List.Pairwise.sublist (kept.trans (lines_itemsFrom false 0 _)) List.pairwise_lt_range'

end Document

namespace Tree

theorem testsAt_eq (t : Tree) (p : Path) (line : Nat) :
    t.testsAt p line = ((t.suitesIn p).flatMap (·.tests)).filter (·.line = line) := by
  rw [testsAt, List.filter_flatMap]

section

variable {ds : List Document} (different : ds.Pairwise fun d e => ¬ d.path.Same e.path)
  {d : Document} (known : d ∈ ds)

include different known

theorem eq_of_same_path {e : Document} (known' : e ∈ ds) (same : e.path.Same d.path) : e = d := by
  have : Std.Symm fun d e : Document => ¬ d.path.Same e.path :=
    ⟨fun _ _ apart same => apart same.symm⟩
  by_contra other
  exact different.forall known' known other same

theorem suitesIn_discovered :
    (discovered ds).suitesIn d.path = ((discovered ds).part d.path).suites := by
  refine List.filter_congr fun s member =>
    decide_eq_decide.2 ⟨fun same => ?_, fun here => here ▸ rfl⟩
  obtain ⟨e, known', home, -⟩ := (stems_discovered ds).suites s member
  rw [home] at same ⊢
  rw [eq_of_same_path different known known' same]

variable (plain : ∀ d ∈ ds, d.path.Plain)

include plain

theorem suitesIn_discovered_alone :
    (discovered ds).suitesIn d.path = (d.insertInto {}).tree.suites := by
  have distinct : ds.Nodup := by
    refine different.imp fun apart same => apart ?_
    rw [same]
    rfl
  have alone : ds.filter (·.path = d.path) = [d] :=
    Search.filter_of_unique distinct known (by simp) fun e known' same =>
      eq_of_same_path different known known' (congrArg Path.components (of_decide_eq_true same))
  rw [suitesIn_discovered different known, part_discovered plain, alone]
  rfl

theorem path_of_mem_suitesIn {x : Test}
    (held : x ∈ ((discovered ds).suitesIn d.path).flatMap (·.tests)) : x.path = d.path := by
  obtain ⟨s, member, inside⟩ := List.mem_flatMap.1 held
  rw [suitesIn_discovered different known, mem_part] at member
  exact ((owned_discovered plain).tests s member.1 x inside).1.trans member.2

theorem marks_discovered :
    ((((discovered ds).suitesIn d.path).flatMap (·.tests)).map Test.mark).Perm
      (UnitMark.marks d.units) := by
  obtain ⟨-, outline⟩ := Document.outline_insertInto (sole_empty d.path)
  have unnamed : (UnitMark.names []).Nodup := List.nodup_nil
  obtain ⟨-, -, held⟩ := UnitMark.joins unnamed d.units
  have marks := marks_outline (d.insertInto {}).tree
  rw [outline] at marks
  rw [suitesIn_discovered_alone different known plain]
  exact marks ▸ held

end

/-- Documents with plain and different paths are discovered into an empty tree. Each test marker
that a document keeps, which is one that the scan finds, has exactly one test at its line, with its
name. A line without a kept marker has none. Over all lines these are the tests of the document's
suites, so tests and kept markers are in bijection, and none of either is listed twice. -/
theorem testsAt_discovered {sources : List (Path × String)} (plain : ∀ s ∈ sources, s.1.Plain)
    (different : sources.Pairwise fun a b => ¬ a.1.Same b.1) {p : Path} {source : String}
    (known : (p, source) ∈ sources) :
    let t := discovered (sources.map fun (path, text) => Document.scan path text)
    let kept := (Document.scan p source).units.flatMap (·.tests)
    let tests := (t.suitesIn p).flatMap (·.tests)
    (∀ mark ∈ kept, .event (.testCase mark.name mark.line) ∈ (scan source).map (·.item)) ∧
      (∀ mark ∈ kept, ∃ x, t.testsAt p mark.line = [x] ∧ x.name = mark.name ∧
        x.line = mark.line ∧ x.path = p) ∧
      (∀ line, (∀ mark ∈ kept, mark.line ≠ line) → t.testsAt p line = []) ∧
      (∀ x, (∃ line, x ∈ t.testsAt p line) ↔ x ∈ tests) ∧
      tests.Nodup ∧ kept.Nodup ∧
      Set.BijOn (fun x => ⟨x.name, x.line⟩) {x | x ∈ tests} {mark : TestMark | mark ∈ kept} := by
  intro t kept tests
  let ds := sources.map fun (path, text) => Document.scan path text
  have plain' : ∀ d ∈ ds, d.path.Plain := List.forall_mem_map.2 plain
  have different' : ds.Pairwise fun d e => ¬ d.path.Same e.path := List.pairwise_map.2 different
  have known' : Document.scan p source ∈ ds := List.mem_map.2 ⟨_, known, rfl⟩
  have made : (tests.map Test.mark).Perm kept := marks_discovered different' known' plain'
  have keptLines : (kept.map (·.line)).Nodup := (Document.lines_marks_scan p source).nodup
  have lines : (tests.map (·.line)).Nodup := by
    have same : (tests.map Test.mark).map (·.line) = tests.map (·.line) := List.map_map
    exact same ▸ (made.map (·.line)).nodup_iff.2 keptLines
  have test_of {mark : TestMark} (held : mark ∈ kept) : ∃ x ∈ tests, x.mark = mark :=
    List.mem_map.1 (made.mem_iff.2 held)
  have mark_of {x : Test} (held : x ∈ tests) : x.mark ∈ kept :=
    made.mem_iff.1 (List.mem_map_of_mem held)
  refine ⟨fun mark held => ?_, fun mark held => ?_, fun line free => ?_, fun x => ?_,
    lines.of_map _, keptLines.of_map _, fun x held => mark_of held, ?_,
    fun mark held => test_of held⟩
  · exact (Document.marks_scan_sublist p source).subset (List.mem_map_of_mem held)
  · obtain ⟨x, inside, rfl⟩ := test_of held
    refine ⟨x, ?_, rfl, rfl, ?_⟩
    · rw [testsAt_eq]
      exact Search.filter_of_unique (lines.of_map _) inside (by simp [Test.mark]) fun y held same =>
        List.inj_on_of_nodup_map lines held inside (of_decide_eq_true same)
    · exact path_of_mem_suitesIn different' known' plain' inside
  · rw [testsAt_eq, List.filter_eq_nil_iff]
    intro x held
    simpa [Test.mark] using free x.mark (mark_of held)
  · simp [testsAt_eq, tests]
  · intro x held y held' same
    exact List.inj_on_of_nodup_map lines held held' (congrArg TestMark.line same)

theorem testsAt_discovered_reopened_unit :
    let p := Path.ofString "/ws/a.pl"
    let q := Path.ofString "/ws/b.pl"
    let source := ":- begin_tests(u).\ntest(x).\n:- begin_tests(v).\ntest(x).\n" ++
      ":- begin_tests(u).\n\ntest(x).\n"
    let sources := [(p, source), (q, ":- begin_tests(u).\ntest(x).\n")]
    let t := discovered (sources.map fun (path, text) => Document.scan path text)
    (∀ s ∈ sources, s.1.Plain) ∧ (sources.Pairwise fun a b => ¬ a.1.Same b.1) ∧
      (p, source) ∈ sources ∧
      (Document.scan p source).units.flatMap (·.tests) = [⟨"x", 1⟩, ⟨"x", 3⟩, ⟨"x", 6⟩] ∧
      (∃ x, t.testsAt p 6 = [x] ∧ x.name = "x" ∧ x.line = 6 ∧ x.path = p) ∧
      t.testsAt p 5 = [] := by
  intro p q source sources t
  have plain : ∀ s ∈ sources, s.1.Plain := by decide
  have different : sources.Pairwise fun a b => ¬ a.1.Same b.1 := by decide
  have known : (p, source) ∈ sources := List.mem_cons_self
  have kept : (Document.scan p source).units.flatMap (·.tests) =
    [⟨"x", 1⟩, ⟨"x", 3⟩, ⟨"x", 6⟩] := by decide +kernel
  obtain ⟨-, one, none, -⟩ := testsAt_discovered plain different known
  rw [kept] at one none
  exact ⟨plain, different, known, kept, one ⟨"x", 6⟩ (by simp), none 5 (by simp)⟩

end Tree

end TestExplorer
