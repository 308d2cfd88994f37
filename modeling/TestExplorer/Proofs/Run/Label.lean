import TestExplorer.Proofs.Run.Selection
import TestExplorer.Proofs.Scan.Names

set_option autoImplicit false

namespace TestExplorer

open Marker (Argument IsName)

/-! ## Labels as selectors -/

namespace Tree

variable {t : Tree}

theorem selects_label_iff {label : String} {s : Suite} {x : Test} :
    Selects label s.name x.name ↔ ':' ∉ s.name.toList ∧ (WorkItem.ofTest s x).label = label := by
  rw [Selects, WorkItem.label, WorkItem.ofTest, eq_comm (a := label)]

/-- A label selects tests of this label only. It finds one exactly where some suite of the label's
tests has a name without a colon, and the test that it is the label of exactly where its own suite
has. -/
theorem Operated.label_selection (operated : t.Operated) {s : Suite} {x : Test}
    (member : s ∈ t.suites) (held : x ∈ s.tests) :
    let label := (WorkItem.ofTest s x).label
    ((∃ scope, t.select [] [label] = .ok scope ∧ .ofTest s x ∈ t.plan scope {}) ↔
        ':' ∉ s.name.toList) ∧
      ((∃ scope, t.select [] [label] = .ok scope) ↔
        ∃ s' ∈ t.suites, ∃ x' ∈ s'.tests,
          ':' ∉ s'.name.toList ∧ (WorkItem.ofTest s' x').label = label) ∧
      ∀ scope, t.select [] [label] = .ok scope → ∀ item, item ∈ t.plan scope {} ↔
        item ∈ t.plan .all {} ∧ ':' ∉ item.suite.toList ∧ item.label = label := by
  intro label
  have given : ([] : List String) ≠ [] ∨ [label] ≠ [] := .inr (by simp)
  have found : (∃ scope, t.select [] [label] = .ok scope) ↔
      ∃ s' ∈ t.suites, ∃ x' ∈ s'.tests, Selects label s'.name x'.name := by
    simp [select_ok_iff given, Selection.asked, Selection.test_ids_eq_nil_iff]
  have planned {scope : Scope} (chosen : t.select [] [label] = .ok scope) (item : WorkItem) :
      item ∈ t.plan scope {} ↔
        ∃ s' ∈ t.suites, ∃ x' ∈ s'.tests, item = .ofTest s' x' ∧ Selects label s'.name x'.name := by
    simpa [plan] using operated.keyed.mem_expand_selected given chosen item
  have own : Selects label s.name x.name ↔ ':' ∉ s.name.toList := by
    simp [selects_label_iff, label]
  refine ⟨⟨?finds, fun plain => ?found⟩, ?selects, fun scope chosen item => ?only⟩
  case finds =>
    rintro ⟨scope, chosen, inside⟩
    obtain ⟨s', -, x', -, same, selects⟩ := (planned chosen _).1 inside
    have unit : s.name = s'.name := congrArg WorkItem.suite same
    rw [unit]
    exact selects.1
  case found =>
    obtain ⟨scope, chosen⟩ := found.2 ⟨s, member, x, held, own.2 plain⟩
    exact ⟨scope, chosen, (planned chosen _).2 ⟨s, member, x, held, rfl, own.2 plain⟩⟩
  case selects => simpa only [selects_label_iff] using found
  case only =>
    rw [planned chosen]
    constructor
    · rintro ⟨s', member', x', held', rfl, selects⟩
      exact ⟨mem_expand_all.2 ⟨s', member', x', held', rfl⟩, selects_label_iff.1 selects⟩
    · rintro ⟨inside, selects⟩
      obtain ⟨s', member', x', held', rfl⟩ := mem_plan inside
      exact ⟨s', member', x', held', rfl, selects_label_iff.2 selects⟩

theorem label_selection_two_files :
    let t := discovered [
      Document.scan (.ofString "/ws/a.pl") ":- begin_tests('a, b').\ntest(m:c).\ntest(m:c).\n",
      Document.scan (.ofString "/ws/b.pl") ":- begin_tests('a, b').\ntest(d).\ntest(m:c).\n"]
    let scope := Scope.many ["test:/ws/a.pl:m:c", "test:/ws/a.pl:m:c#2", "test:/ws/b.pl:m:c"]
    t.Operated ∧ t.select [] ["'a, b':m:c"] = .ok scope ∧
      ∀ item, item ∈ t.plan scope {} ↔
        item ∈ t.plan .all {} ∧ ':' ∉ item.suite.toList ∧ item.label = "'a, b':m:c" := by
  intro t scope
  have operated : t.Operated := operated_discovered _
  have chosen : t.select [] ["'a, b':m:c"] = .ok scope := by decide +kernel
  obtain ⟨s, member, x, held, label⟩ :
      ∃ s ∈ t.suites, ∃ x ∈ s.tests, (WorkItem.ofTest s x).label = "'a, b':m:c" := by
    decide +kernel
  obtain ⟨-, -, only⟩ := operated.label_selection member held
  rw [label] at only
  exact ⟨operated, chosen, only scope chosen⟩

/-- A name with a colon in quotes hides the suite's tests from their labels, and one outside of quotes
lets a label select another test. -/
theorem colon_hides_label :
    let quoted := discovered [
      Document.scan (.ofString "/ws/a.pl") ":- begin_tests('a:b').\ntest(c).\n"]
    let bare := discovered [
      Document.scan (.ofString "/ws/a.pl")
        ":- begin_tests(a:b).\ntest(c).\n:- begin_tests(a).\ntest(b:c).\n"]
    (quoted.plan .all {}).map (·.label) = ["'a:b':c"] ∧
      quoted.select [] ["'a:b':c"] = .error (.noTest "'a:b':c") ∧
      (bare.plan .all {}).map (fun item => (item.label, item.id.text)) =
        [("a:b:c", "test:/ws/a.pl:c"), ("a:b:c", "test:/ws/a.pl:b:c")] ∧
      bare.select [] ["a:b:c"] = .ok (.many ["test:/ws/a.pl:b:c"]) := by
  decide +kernel

end Tree

/-! ## Labels in goals -/

namespace Tree

def Named (t : Tree) : Prop :=
  ∀ s ∈ t.suites, IsName s.name ∧ ∀ x ∈ s.tests, IsName x.name

theorem Named.insertInto {t : Tree} (named : t.Named) {d : Document}
    (given : ∀ u ∈ d.units, u.Named) : (d.insertInto t).tree.Named := by
  refine d.insertInto_induction t named ?suite ?test
  case suite =>
    intro t t' s unit marked named added s' member
    rcases mem_addSuite added member with old | rfl
    · exact named s' old
    · exact ⟨(given unit marked).1, by simp⟩
  case test =>
    intro t t' x unit marked mark declared named added s' member
    obtain ⟨-, new, -⟩ := addTestWithId_ok added
    obtain ⟨s, old, -, same, -, origin⟩ := mem_addTestWithId added member
    rw [same]
    refine ⟨(named s old).1, fun y held => ?_⟩
    rcases origin y held with old' | ⟨rfl, -⟩
    · exact (named s old).2 y old'
    · rw [new]
      exact (given unit marked).2 mark declared

theorem named_discovered (sources : List (Path × String)) :
    (discovered (sources.map fun (path, source) => Document.scan path source)).Named := by
  refine List.foldlRecOn (motive := Named) _ _ (by simp [Named]) fun t named d known => ?_
  obtain ⟨⟨path, source⟩, -, rfl⟩ := List.mem_map.1 known
  exact named.insertInto (Document.named_scan path source)

end Tree

theorem WorkItem.argument_label {s : Suite} {x : Test} (suite : IsName s.name)
    (test : IsName x.name) : Argument (WorkItem.ofTest s x).label.toList := by
  have joined : (WorkItem.ofTest s x).label.toList = s.name.toList ++ ':' :: x.name.toList := by
    simp [WorkItem.label, WorkItem.ofTest]
  rw [joined]
  exact suite.formed.append (.plain rfl rfl test.formed)

theorem WorkItem.goal_eq (item : WorkItem) :
    item.invocation.goal = "run_tests(" ++ item.label ++ "),halt" := by
  simp only [WorkItem.invocation, Invocation.forTest, WorkItem.label, String.append_assoc]
  rfl

/-- Where a goal is read as a marker is, its argument is the label and all of it: a comma or a closing
parenthesis in a name stands in quotes. So does a name that is read again. -/
theorem Tree.goals_closed (sources : List (Path × String)) :
    let t := discovered (sources.map fun (path, source) => Document.scan path source)
    (∀ scope options, ∀ item ∈ t.plan scope options,
      let read := item.label.toList ++ "),halt".toList
      item.invocation.goal.toList = "run_tests(".toList ++ read ∧
        Marker.argumentText .plain read = some item.label.toList ∧
        ∀ before c after, item.label.toList = before ++ c :: after → Marker.isTerminator c →
          ¬ Argument before) ∧
      ∀ (m again : Marker) (line name : String), m.extract? line = some name →
        again.extract? (again.literal ++ name ++ ")") = some name := by
  intro t
  refine ⟨fun scope options item planned => ?_, fun m again line name found =>
    (Marker.isName_of_extract? found).extract? again⟩
  obtain ⟨s, member, x, held, rfl⟩ := mem_plan planned
  obtain ⟨suite, tests⟩ := named_discovered sources s member
  have formed := WorkItem.argument_label suite (tests x held)
  have closes : Marker.isTerminator ')' := rfl
  have whole := Marker.argumentText_of_argument formed closes ",halt".toList
  refine ⟨by simp [WorkItem.goal_eq], whole, ?_⟩
  intro before c after parts ends early
  have cut := Marker.argumentText_of_argument early ends (after ++ ')' :: ",halt".toList)
  rw [parts, List.append_assoc, List.cons_append, cut] at whole
  simpa using Option.some.inj whole

theorem Tree.goals_closed_quoted :
    let source := ":- begin_tests('a, b').\ntest('c)', X == 'd').\n"
    let t := discovered ([(.ofString "/ws/a.pl", source)].map fun (path, source) =>
      Document.scan path source)
    let label := "'a, b':'c)'"
    let read := label.toList ++ "),halt".toList
    (∃ item ∈ t.plan .all {}, item.label = label ∧
      item.invocation.goal.toList = "run_tests(".toList ++ read ∧
      Marker.argumentText .plain read = some label.toList ∧ ¬ Argument "'a".toList) ∧
    Marker.testCase.extract? "test('c)', X == 'd')." = some "'c)'" ∧
    Marker.suiteBegin.extract? (Marker.suiteBegin.literal ++ "'c)'" ++ ")") = some "'c)'" := by
  intro source t label read
  obtain ⟨goals, names⟩ := goals_closed [(.ofString "/ws/a.pl", source)]
  have found : Marker.testCase.extract? "test('c)', X == 'd')." = some "'c)'" := by decide +kernel
  obtain ⟨item, planned, named⟩ : ∃ item ∈ t.plan .all {}, item.label = label := by decide +kernel
  obtain ⟨goal, whole, closed⟩ := goals .all {} item planned
  rw [named] at goal whole closed
  refine ⟨⟨item, planned, named, goal, whole, ?_⟩, found, names .testCase .suiteBegin _ _ found⟩
  exact closed "'a".toList ',' " b':'c)'".toList (by decide +kernel) rfl

end TestExplorer
