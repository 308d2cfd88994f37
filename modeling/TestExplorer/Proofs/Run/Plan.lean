import TestExplorer.Proofs.Tree.Contents
import TestExplorer.Run.Plan

set_option autoImplicit false

namespace TestExplorer.Tree

theorem ids_items (s : Suite) : s.items.map (·.id) = s.tests.map (·.id) := by
  simp [Suite.items, WorkItem.ofTest]

theorem ids_keepFirst (seen : List TestId) (items : List WorkItem) :
    ((keepFirst seen items).map (·.id)).Nodup ∧
      ∀ item ∈ keepFirst seen items, item.id ∉ seen := by
  induction items generalizing seen with
  | nil => simp [keepFirst]
  | cons item rest ih =>
    by_cases here : item.id ∈ seen
    · simpa [keepFirst, here] using ih seen
    · have ⟨distinct, fresh⟩ := ih (item.id :: seen)
      simp only [keepFirst, here, if_false, List.map_cons, List.nodup_cons]
      refine ⟨⟨?_, distinct⟩, ?_⟩
      · intro member
        obtain ⟨other, kept, same⟩ := List.mem_map.1 member
        exact fresh other kept (by simp [same])
      · intro other member
        rcases List.mem_cons.1 member with rfl | later
        · exact here
        · exact fun found => fresh other later (List.mem_cons_of_mem _ found)

variable {t : Tree}

theorem nodup_expand (formed : t.WellFormed) (scope : Scope) :
    ((t.expand scope).map (·.id)).Nodup := by
  cases scope with
  | all =>
    have all : (t.suites.flatMap Suite.items).map (·.id) = t.tests.map (·.id) := by
      simp [tests, List.map_flatMap, ids_items]
    simpa [expand, all] using formed.testIds
  | suite id =>
    cases found : t.suite? id with
    | none => simp [expand, found]
    | some s =>
      have member : s ∈ t.suites := List.mem_of_find?_eq_some found
      have part : (s.tests.map (·.id)).Sublist (t.tests.map (·.id)) :=
        (tests_sublist member).map _
      simpa [expand, found, ids_items] using formed.testIds.sublist part
  | test id =>
    cases found : t.test? id with
    | none => simp [expand, found]
    | some entry => simp [expand, found]
  | many ids => exact (ids_keepFirst [] _).1

theorem nodup_plan (formed : t.WellFormed) (scope : Scope) (options : RunOptions) :
    ((t.plan scope options).map (·.id)).Nodup := by
  cases keyword : options.keyword with
  | none => simpa [plan, keyword] using nodup_expand formed scope
  | some word =>
    have part : (t.plan scope options).Sublist (t.expand scope) := by
      simp [plan, keyword]
    exact (nodup_expand formed scope).sublist (part.map _)

theorem mem_of_mem_keepFirst {seen : List TestId} {items : List WorkItem} {item : WorkItem}
    (kept : item ∈ keepFirst seen items) : item ∈ items := by
  induction items generalizing seen with
  | nil => contradiction
  | cons first rest ih =>
    unfold keepFirst at kept
    split at kept
    next => exact List.mem_cons_of_mem _ (ih kept)
    next =>
      rcases List.mem_cons.1 kept with rfl | later
      · exact List.mem_cons_self
      · exact List.mem_cons_of_mem _ (ih later)

theorem mem_of_find?_suite {id : String} {s : Suite} (found : t.find? id = some (.suite s)) :
    s ∈ t.suites := by
  unfold find? at found
  split_ifs at found
  · obtain ⟨s', here, same⟩ := Option.map_eq_some_iff.1 found
    obtain rfl := Entry.suite.inj same
    exact List.mem_of_find?_eq_some here
  · obtain ⟨s', -, found⟩ := List.exists_of_findSome?_eq_some found
    simp at found

theorem mem_of_find?_test {id : String} {x : Test} {s : Suite}
    (found : t.find? id = some (.test x s)) : s ∈ t.suites ∧ x ∈ s.tests := by
  unfold find? at found
  split_ifs at found
  · simp at found
  · obtain ⟨s', member, found⟩ := List.exists_of_findSome?_eq_some found
    obtain ⟨x', held, same⟩ := Option.map_eq_some_iff.1 found
    obtain ⟨rfl, rfl⟩ := Entry.test.inj same
    exact ⟨member, List.mem_of_find?_eq_some held⟩

theorem mem_of_test? {id : TestId} {x : Test} {s : Suite} (found : t.test? id = some (x, s)) :
    s ∈ t.suites ∧ x ∈ s.tests := by
  obtain ⟨s', member, found⟩ := List.exists_of_findSome?_eq_some found
  obtain ⟨x', held, same⟩ := Option.map_eq_some_iff.1 found
  obtain ⟨rfl, rfl⟩ := Prod.mk.inj same
  exact ⟨member, List.mem_of_find?_eq_some held⟩

theorem mem_expand_all {item : WorkItem} :
    item ∈ t.expand .all ↔ ∃ s ∈ t.suites, ∃ x ∈ s.tests, item = .ofTest s x := by
  simp [expand, Suite.items, eq_comm]

theorem mem_expand {scope : Scope} {item : WorkItem} (planned : item ∈ t.expand scope) :
    ∃ s ∈ t.suites, ∃ x ∈ s.tests, item = .ofTest s x := by
  have inSuite {s : Suite} (member : s ∈ t.suites) (inside : item ∈ s.items) :
      ∃ s ∈ t.suites, ∃ x ∈ s.tests, item = .ofTest s x := by
    obtain ⟨x, held, rfl⟩ := List.mem_map.1 inside
    exact ⟨s, member, x, held, rfl⟩
  cases scope with
  | all => exact mem_expand_all.1 planned
  | suite id =>
    cases found : t.suite? id with
    | none => simp [expand, found] at planned
    | some s =>
      have inside : item ∈ s.items := by simpa [expand, found] using planned
      exact inSuite (List.mem_of_find?_eq_some found) inside
  | test id =>
    cases found : t.test? id with
    | none => simp [expand, found] at planned
    | some entry =>
      obtain ⟨member, held⟩ := mem_of_test? found
      exact ⟨entry.2, member, entry.1, held, by simpa [expand, found] using planned⟩
  | many ids =>
    obtain ⟨id, -, named⟩ := List.mem_flatMap.1 (mem_of_mem_keepFirst planned)
    cases found : t.find? id with
    | none => simp [itemsOf, found] at named
    | some entry =>
      cases entry with
      | suite s =>
        have inside : item ∈ s.items := by simpa [itemsOf, found] using named
        exact inSuite (mem_of_find?_suite found) inside
      | test x s =>
        obtain ⟨member, held⟩ := mem_of_find?_test found
        exact ⟨s, member, x, held, by simpa [itemsOf, found] using named⟩

theorem mem_plan {scope : Scope} {options : RunOptions} {item : WorkItem}
    (planned : item ∈ t.plan scope options) : ∃ s ∈ t.suites, ∃ x ∈ s.tests, item = .ofTest s x := by
  unfold plan at planned
  split at planned
  next => exact mem_expand planned
  next => exact mem_expand (List.mem_of_mem_filter planned)

end TestExplorer.Tree
