import TestExplorer.Proofs.Run.Plan
import TestExplorer.Proofs.Tree.Lookup

set_option autoImplicit false

namespace TestExplorer

namespace Tree

/-- What an identifier stands for: the tests of the suite that goes by it, or the test that does. -/
def itemsNamed (t : Tree) (id : String) : List WorkItem :=
  t.suites.flatMap fun s =>
    if s.id.text = id then s.items else (s.tests.filter (·.id.text = id)).map (.ofTest s)

variable {t : Tree}

theorem WellFormed.nodup_suites (formed : t.WellFormed) : t.suites.Nodup :=
  .of_map _ formed.suiteIds

theorem WellFormed.nodup_tests (formed : t.WellFormed) {s : Suite} (member : s ∈ t.suites) :
    s.tests.Nodup :=
  (List.Nodup.of_map _ formed.testIds).sublist (tests_sublist member)

theorem itemsNamed_unknown {id : String}
    (unknown : ∀ s ∈ t.suites, s.id.text ≠ id ∧ ∀ x ∈ s.tests, x.id.text ≠ id) :
    t.itemsNamed id = [] := by
  refine List.flatMap_eq_nil_iff.2 fun s member => ?_
  obtain ⟨suite, tests⟩ := unknown s member
  simpa [suite] using tests

namespace Keyed

variable (keyed : t.Keyed)

include keyed

theorem itemsNamed_suite {s : Suite} (member : s ∈ t.suites) :
    t.itemsNamed s.id.text = s.items := by
  refine (Search.flatMap_of_unique keyed.nodup_suites member fun s' member' other => ?_).trans
    (if_pos rfl)
  have apart : s'.id.text ≠ s.id.text := fun same =>
    other (keyed.suite_unique member' member (SuiteId.text_inj.1 same))
  simpa [apart] using fun x held => (keyed.suite_ne_test member member' held).symm

theorem itemsNamed_test {s : Suite} {x : Test} (member : s ∈ t.suites) (held : x ∈ s.tests) :
    t.itemsNamed x.id.text = [.ofTest s x] := by
  have alone : s.tests.filter (·.id.text = x.id.text) = [x] :=
    Search.filter_of_unique (keyed.nodup_tests member) held (by simp) fun y held' same =>
      (keyed.test_unique member held member held' (by simpa using same)).1
  refine (Search.flatMap_of_unique keyed.nodup_suites member fun s' member' other => ?_).trans ?_
  · have apart : ∀ y ∈ s'.tests, y.id.text ≠ x.id.text := fun y held' same =>
      other (keyed.test_unique member held member' held' (TestId.text_inj.1 same)).2
    simpa [keyed.suite_ne_test member' member held] using apart
  · rw [if_neg (keyed.suite_ne_test member member held), alone]
    rfl

theorem itemsOf_eq (id : String) : (t.itemsOf id).getD [] = t.itemsNamed id := by
  by_cases suite : ∃ s ∈ t.suites, s.id.text = id
  case pos =>
    obtain ⟨s, member, rfl⟩ := suite
    simp [itemsOf, keyed.find?_suite member, keyed.itemsNamed_suite member]
  case neg =>
    by_cases test : ∃ s ∈ t.suites, ∃ x ∈ s.tests, x.id.text = id
    case pos =>
      obtain ⟨s, member, x, held, rfl⟩ := test
      simp [itemsOf, keyed.find?_test member held, keyed.itemsNamed_test member held]
    case neg =>
      push Not at suite test
      rw [itemsNamed_unknown fun s member => ⟨suite s member, test s member⟩, itemsOf,
        find?_eq_none suite test]
      rfl

end Keyed

/-! ## First places -/

-- Where an identifier has one item only, to keep first identifiers is to keep first items.
theorem keepFirst_eq {items : List WorkItem} (seen : List TestId)
    (one : ∀ a ∈ items, ∀ b ∈ items, a.id = b.id → a = b) :
    keepFirst seen items = (items.filter (·.id ∉ seen)).eraseDups := by
  induction items generalizing seen with
  | nil => rfl
  | cons item rest ih =>
    have later := fun seen => ih seen fun a inA b inB =>
      one a (List.mem_cons_of_mem _ inA) b (List.mem_cons_of_mem _ inB)
    by_cases here : item.id ∈ seen
    case pos => simpa [keepFirst, here] using later seen
    case neg =>
      have dropped : rest.filter (·.id ∉ item.id :: seen) =
          (rest.filter (·.id ∉ seen)).filter fun other => ! other == item := by
        rw [List.filter_filter]
        refine List.filter_congr fun other inside => ?_
        have same : other.id = item.id ↔ other = item :=
          ⟨one other (List.mem_cons_of_mem _ inside) item List.mem_cons_self, congrArg _⟩
        rw [Bool.eq_iff_iff]
        simp [same]
      rw [keepFirst, if_neg here, later, dropped, List.filter_cons_of_pos (by simpa using here),
        List.eraseDups_cons]

theorem keepFirst_eq_self {seen : List TestId} {items : List WorkItem}
    (distinct : (items.map (·.id)).Nodup) (fresh : ∀ item ∈ items, item.id ∉ seen) :
    keepFirst seen items = items := by
  induction items generalizing seen with
  | nil => rfl
  | cons item rest ih =>
    obtain ⟨other, distinct⟩ := List.nodup_cons.1 distinct
    rw [keepFirst, if_neg (fresh item List.mem_cons_self), ih distinct]
    intro later inside seen'
    rcases List.mem_cons.1 seen' with same | seen'
    · exact other (List.mem_map.2 ⟨later, inside, same⟩)
    · exact fresh later (List.mem_cons_of_mem _ inside) seen'

/-! ## Plans -/

theorem plan_congr {a b : Scope} (same : t.expand a = t.expand b) (options : RunOptions) :
    t.plan a options = t.plan b options := by
  simp only [plan, same]

theorem plan_unfiltered (scope : Scope) (options : RunOptions) :
    t.plan scope { options with keyword := none } = t.expand scope := rfl

theorem plan_keyword (scope : Scope) (options : RunOptions) (word : String) :
    t.plan scope { options with keyword := some word } =
      (t.plan scope { options with keyword := none }).filter fun item =>
        Text.Occurs word.toList item.label.toList := by
  simp only [plan_unfiltered]
  exact List.filter_congr fun item _ => by
    rw [Bool.eq_iff_iff, Text.occurs_iff, decide_eq_true_iff]

theorem mem_itemsNamed {id : String} {item : WorkItem} (inside : item ∈ t.itemsNamed id) :
    ∃ s ∈ t.suites, ∃ x ∈ s.tests, item = .ofTest s x := by
  obtain ⟨s, member, held⟩ := List.mem_flatMap.1 inside
  refine ⟨s, member, ?_⟩
  split at held
  next => simpa [Suite.items, eq_comm] using held
  next =>
    obtain ⟨x, chosen, same⟩ := List.mem_map.1 held
    exact ⟨x, List.mem_of_mem_filter chosen, same.symm⟩

namespace Keyed

variable (keyed : t.Keyed)

include keyed

theorem expand_many (ids : List String) :
    t.expand (.many ids) = (ids.flatMap t.itemsNamed).eraseDups := by
  have one : ∀ a ∈ ids.flatMap t.itemsNamed, ∀ b ∈ ids.flatMap t.itemsNamed,
      a.id = b.id → a = b := by
    intro a inA b inB same
    obtain ⟨_, _, namedA⟩ := List.mem_flatMap.1 inA
    obtain ⟨_, _, namedB⟩ := List.mem_flatMap.1 inB
    obtain ⟨s, member, x, held, rfl⟩ := mem_itemsNamed namedA
    obtain ⟨s', member', y, held', rfl⟩ := mem_itemsNamed namedB
    obtain ⟨rfl, rfl⟩ := keyed.test_unique member' held' member held same
    rfl
  simp only [expand, keyed.itemsOf_eq]
  rw [keepFirst_eq [] one, List.filter_eq_self.2 (by simp)]

theorem expand_suite {s : Suite} (member : s ∈ t.suites) : t.expand (.suite s.id) = s.items := by
  simp [expand, keyed.suite?_eq member]

theorem expand_test {s : Suite} {x : Test} (member : s ∈ t.suites) (held : x ∈ s.tests) :
    t.expand (.test x.id) = [.ofTest s x] := by
  simp [expand, keyed.test?_eq member held]

theorem expand_many_eq {ids : List String} {scope : Scope}
    (covers : ids.flatMap t.itemsNamed = t.expand scope) :
    t.expand (.many ids) = t.expand scope := by
  have distinct := nodup_expand keyed.toWellFormed scope
  simp only [expand, keyed.itemsOf_eq, covers] at distinct ⊢
  exact keepFirst_eq_self distinct (by simp)

end Keyed

/-- Each scope covers what its identifiers stand for, each test once and in the order of the
request, and a keyword leaves out the items whose label it does not stand in. -/
theorem Operated.plan_laws (operated : t.Operated) (options : RunOptions) :
    (∀ scope, ((t.plan scope options).map (·.id)).Nodup) ∧
      (∀ scope word, t.plan scope { options with keyword := some word } =
        (t.plan scope { options with keyword := none }).filter fun item =>
          Text.Occurs word.toList item.label.toList) ∧
      (∀ ids, t.plan (.many ids) { options with keyword := none } =
        (ids.flatMap t.itemsNamed).eraseDups) ∧
      (∀ s ∈ t.suites, t.itemsNamed s.id.text = s.tests.map (.ofTest s) ∧
        t.plan (.many [s.id.text]) options = t.plan (.suite s.id) options ∧
        ∀ x ∈ s.tests, t.itemsNamed x.id.text = [.ofTest s x] ∧
          t.plan (.many [x.id.text]) options = t.plan (.test x.id) options) ∧
      (∀ id, (∀ s ∈ t.suites, s.id.text ≠ id ∧ ∀ x ∈ s.tests, x.id.text ≠ id) →
        t.itemsNamed id = []) ∧
      t.plan (.many (t.suites.map (·.id.text))) options = t.plan .all options ∧
      t.plan .all { options with keyword := none } = t.suites.flatMap fun s =>
        s.tests.map fun x => { id := x.id, suite := s.name, test := x.name, path := s.path } := by
  have keyed := operated.keyed
  refine ⟨fun scope => nodup_plan keyed.toWellFormed scope options,
    fun scope word => plan_keyword scope options word, fun ids => keyed.expand_many ids, ?_,
    fun id unknown => itemsNamed_unknown unknown, ?_, rfl⟩
  · intro s member
    have suite := keyed.itemsNamed_suite member
    refine ⟨suite, plan_congr (keyed.expand_many_eq ?_) options, fun x held => ?_⟩
    · simp [suite, keyed.expand_suite member]
    · have test := keyed.itemsNamed_test member held
      refine ⟨test, plan_congr (keyed.expand_many_eq ?_) options⟩
      simp [test, keyed.expand_test member held]
  · refine plan_congr (keyed.expand_many_eq ?_) options
    have each : ∀ s ∈ t.suites, t.itemsNamed s.id.text = s.items := fun s member =>
      keyed.itemsNamed_suite member
    rw [List.flatMap_map, expand, List.flatMap_def, List.flatMap_def, List.map_congr_left each]

theorem plan_laws_overlapping_request :
    let path := Path.ofString "/ws/math.pl"
    let source := ":- begin_tests(sums).\ntest(add).\ntest(add).\n" ++
      ":- begin_tests(lists).\ntest(last).\n"
    let t := Operation.performAll [.insert (Document.scan path source)]
    let asked := ["test:/ws/math.pl:last", "suite:/ws/math.pl:none", "test:/ws/math.pl:add#2",
      "suite:/ws/math.pl:sums", "suite:/ws/math.pl:lists"]
    t.Operated ∧ (t.plan (.many asked) {}).map (·.id.text) =
      ["test:/ws/math.pl:last", "test:/ws/math.pl:add#2", "test:/ws/math.pl:add"] := by
  intro path source t asked
  have operated : t.Operated := ⟨_, by simp [Operation.IsIssued], rfl⟩
  have chosen := (operated.plan_laws {}).2.2.1 asked
  exact ⟨operated, (congrArg _ chosen).trans (by decide +kernel)⟩

end Tree

end TestExplorer
