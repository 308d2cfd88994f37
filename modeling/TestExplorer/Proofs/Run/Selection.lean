import TestExplorer.CommandLine.Selection
import TestExplorer.Proofs.Run.Scope

set_option autoImplicit false

namespace TestExplorer

namespace Search

variable {ι α : Type}

theorem flatMap_filter {β : Type} (p : α → Bool) (f : α → List β) (xs : List α) :
    (xs.filter p).flatMap f = xs.flatMap fun x => if p x then f x else [] := by
  induction xs with
  | nil => rfl
  | cons x rest ih => by_cases here : p x <;> simp [here, ih]

variable [DecidableEq α]

theorem eraseDups_of_nodup {xs : List α} (distinct : xs.Nodup) : xs.eraseDups = xs := by
  induction xs with
  | nil => rfl
  | cons x rest ih =>
    obtain ⟨absent, distinct⟩ := List.nodup_cons.1 distinct
    have kept : rest.filter (! · == x) = rest := List.filter_eq_self.2 fun y inside => by
      simpa using ne_of_mem_of_not_mem inside absent
    rw [List.eraseDups_cons, kept, ih distinct]

-- What several picks take from a list, one pick after the other, is each taken member once, and
-- ordered by the first pick that takes it.
theorem eraseDups_picks (picks : ι → α → Bool) (order : List ι) {xs : List α}
    (distinct : xs.Nodup) :
    (order.flatMap fun i => xs.filter (picks i)).eraseDups =
      (List.range order.length).flatMap fun k =>
        xs.filter fun x => order.findIdx (picks · x) = k := by
  induction order generalizing xs with
  | nil => rfl
  | cons i rest ih =>
    -- The later picks take from what the first one leaves, so the list shrinks with the picks.
    have left : (rest.flatMap fun j => xs.filter (picks j)).removeAll (xs.filter (picks i)) =
        rest.flatMap fun j => (xs.filter (! picks i ·)).filter (picks j) := by
      rw [List.removeAll, List.filter_flatMap]
      congr 1
      funext j
      rw [List.filter_comm, List.filter_filter, List.filter_filter]
      refine List.filter_congr fun x inside => ?_
      simp [inside]
    have first (x : α) : decide ((i :: rest).findIdx (picks · x) = 0) = picks i x := by
      cases taken : picks i x <;> simp [List.findIdx_cons, taken]
    have later (k : Nat) (x : α) : decide ((i :: rest).findIdx (picks · x) = k + 1) =
        (decide (rest.findIdx (picks · x) = k) && ! picks i x) := by
      cases taken : picks i x <;> simp [List.findIdx_cons, taken]
    rw [List.flatMap_cons, List.eraseDups_append, eraseDups_of_nodup (distinct.filter _), left,
      ih (distinct.filter _), List.length_cons, List.range_succ_eq_map, List.flatMap_cons,
      List.flatMap_map]
    simp only [first, Nat.succ_eq_add_one, later, List.filter_filter]

end Search

/-! ## Selectors -/

/-- A selector names a test by the texts before and after its first colon. -/
def Selects (selector suite test : String) : Prop :=
  ':' ∉ suite.toList ∧ selector = suite ++ ":" ++ test

instance (selector suite test : String) : Decidable (Selects selector suite test) :=
  inferInstanceAs (Decidable (_ ∧ _))

theorem Text.not_mem_of_cut? {c : Char} {text before after : List Char}
    (parted : cut? [c] text = some (before, after)) : c ∉ before := by
  intro inside
  obtain ⟨earlier, rest, rfl⟩ := List.append_of_mem inside
  have stands : text = earlier ++ [c] ++ (rest ++ c :: after) := by simp [cut?_parts parted]
  have first := cut?_length_le parted stands
  rw [List.length_append, List.length_cons] at first
  omega

namespace Tree

theorem splitSelector?_eq_some_iff {selector suite test : String} :
    splitSelector? selector = some (suite, test) ↔ Selects selector suite test := by
  rw [splitSelector?, Option.map_eq_some_iff]
  constructor
  · rintro ⟨⟨before, after⟩, parted, same⟩
    obtain ⟨rfl, rfl⟩ := Prod.mk.inj same
    refine ⟨by simpa using Text.not_mem_of_cut? parted, ?_⟩
    simpa [← String.toList_inj] using Text.cut?_parts parted
  · rintro ⟨plain, rfl⟩
    have parted : Text.cut? [':'] (suite.toList ++ [':'] ++ test.toList) =
        some (suite.toList, test.toList) := Text.cut?_of_head_not_mem plain test.toList
    exact ⟨(suite.toList, test.toList), by simpa using parted, by simp⟩

theorem splitSelector?_eq_none_iff {selector : String} :
    splitSelector? selector = none ↔ ':' ∉ selector.toList := by
  have found : Text.occurs [':'] selector.toList = true ↔ ':' ∈ selector.toList := by
    rw [Text.occurs_iff, List.mem_iff_append]
    simp [Text.Occurs]
  rw [← found, splitSelector?, Option.map_eq_none_iff, Text.occurs, Option.not_isSome_iff_eq_none]

end Tree

/-! ## Selections -/

inductive Selection where
  | suite (name : String)
  | test (selector : String)

namespace Selection

def asked (suites tests : List String) : List Selection :=
  suites.map suite ++ tests.map test

def Picks : Selection → WorkItem → Prop
  | suite name, item => item.suite = name
  | test selector, item => Selects selector item.suite item.test

instance (item : WorkItem) : (selection : Selection) → Decidable (selection.Picks item)
  | suite name => inferInstanceAs (Decidable (item.suite = name))
  | test selector => inferInstanceAs (Decidable (Selects selector item.suite item.test))

def choose (t : Tree) : Selection → Except SelectionError (List String)
  | suite name => t.selectSuite name
  | test selector => t.selectTest selector

def ids (t : Tree) : Selection → List String
  | suite name => (t.suitesNamed name).map (·.id.text)
  | test selector =>
    (t.suites.flatMap fun s => s.tests.filter fun x => Selects selector s.name x.name).map
      (·.id.text)

variable {t : Tree}

theorem tests_of_split {selector unit name : String}
    (split : Tree.splitSelector? selector = some (unit, name)) :
    ((t.suitesNamed unit).flatMap fun s => s.tests.filter (·.name = name)) =
      t.suites.flatMap fun s => s.tests.filter fun x => Selects selector s.name x.name := by
  have selects (s : Suite) (x : Test) :
      Selects selector s.name x.name ↔ s.name = unit ∧ x.name = name := by
    rw [← Tree.splitSelector?_eq_some_iff, split]
    simp [eq_comm]
  simp only [selects, Tree.suitesNamed, Search.flatMap_filter]
  refine List.flatMap_congr fun s _ => ?_
  by_cases named : s.name = unit <;> simp [named]

theorem choose_cases (t : Tree) (selection : Selection) :
    (selection.ids t ≠ [] ∧ selection.choose t = .ok (selection.ids t)) ∨
      (selection.ids t = [] ∧ ∃ error, selection.choose t = .error error) := by
  cases selection with
  | suite name =>
    simp only [choose, Tree.selectSuite, ids]
    split <;> simp_all
  | test selector =>
    simp only [choose, Tree.selectTest, ids]
    split
    next none =>
      have selects (s : Suite) (x : Test) : ¬ Selects selector s.name x.name := by
        rw [← Tree.splitSelector?_eq_some_iff, none]
        simp
      simp [selects]
    next unit name parted =>
      rw [tests_of_split parted]
      split <;> simp_all

theorem suite_ids_eq_nil_iff {name : String} :
    (suite name).ids t = [] ↔ ∀ s ∈ t.suites, s.name ≠ name := by
  simp [ids, Tree.suitesNamed]

theorem test_ids_eq_nil_iff {selector : String} :
    (test selector).ids t = [] ↔
      ∀ s ∈ t.suites, ∀ x ∈ s.tests, ¬ Selects selector s.name x.name := by
  simp [ids]

theorem selects_nothing_iff {selector : String} :
    (∀ s ∈ t.suites, ∀ x ∈ s.tests, ¬ Selects selector s.name x.name) ↔
      ':' ∉ selector.toList ∨ ∃ unit name, Selects selector unit name ∧
        ∀ s ∈ t.suites, ∀ x ∈ s.tests, ¬ (s.name = unit ∧ x.name = name) := by
  rw [← Tree.splitSelector?_eq_none_iff]
  simp only [← Tree.splitSelector?_eq_some_iff]
  cases Tree.splitSelector? selector with
  | none => simp
  | some parts =>
    obtain ⟨unit, name⟩ := parts
    simp [eq_comm (a := unit), eq_comm (a := name)]

theorem picked_iff {suites tests : List String} {item : WorkItem} :
    (∃ selection ∈ asked suites tests, selection.Picks item) ↔
      item.suite ∈ suites ∨ ∃ selector ∈ tests, Selects selector item.suite item.test := by
  simp only [asked, List.mem_append, List.mem_map, or_and_right, exists_or]
  simp [Picks]

theorem itemsNamed_ids (keyed : t.Keyed) (selection : Selection) :
    (selection.ids t).flatMap t.itemsNamed = (t.expand .all).filter (selection.Picks ·) := by
  rw [Tree.expand, List.filter_flatMap]
  cases selection with
  | suite name =>
    rw [ids, Tree.suitesNamed, List.flatMap_map, Search.flatMap_filter]
    refine List.flatMap_congr fun s member => ?_
    by_cases named : s.name = name <;>
      simp [Picks, Suite.items, WorkItem.ofTest, Function.comp_def, List.filter_map, named,
        keyed.itemsNamed_suite member]
  | test selector =>
    rw [ids, List.flatMap_map, List.flatMap_assoc]
    refine List.flatMap_congr fun s member => ?_
    have each : ∀ x ∈ s.tests.filter fun x => Selects selector s.name x.name,
        t.itemsNamed x.id.text = [.ofTest s x] := fun x chosen =>
      keyed.itemsNamed_test member (List.mem_of_mem_filter chosen)
    rw [List.flatMap_congr each, ← List.map_eq_flatMap, Suite.items, List.filter_map]
    rfl

end Selection

namespace Tree

theorem selectEach_ok {choose : String → Except SelectionError (List String)}
    {ids : String → List String} {names : List String}
    (found : ∀ name ∈ names, choose name = .ok (ids name)) :
    selectEach choose names = .ok (names.flatMap ids) := by
  induction names with
  | nil => rfl
  | cons name rest ih =>
    have later := ih fun other inside => found other (List.mem_cons_of_mem _ inside)
    rw [selectEach, found name List.mem_cons_self, later]
    rfl

theorem selectEach_error {choose : String → Except SelectionError (List String)}
    {names : List String} {name : String} (asked : name ∈ names) {error : SelectionError}
    (missing : choose name = .error error) : ∃ error, selectEach choose names = .error error := by
  induction names with
  | nil => contradiction
  | cons first rest ih =>
    rw [selectEach]
    cases here : choose first with
    | error error => exact ⟨error, rfl⟩
    | ok ids =>
      have later : name ∈ rest := by
        rcases List.mem_cons.1 asked with rfl | later
        · rw [here] at missing
          cases missing
        · exact later
      obtain ⟨error, refused⟩ := ih later
      exact ⟨error, by rw [refused]; rfl⟩

open Selection (asked)

variable {t : Tree} {suites tests : List String}

theorem select_eq (given : suites ≠ [] ∨ tests ≠ []) :
    t.select suites tests = (do
      let ids ← selectEach t.selectSuite suites
      let more ← selectEach t.selectTest tests
      pure (.many (ids ++ more))) := by
  rw [select, if_neg]
  rcases given with given | given <;> simp [given]

theorem select_ok (given : suites ≠ [] ∨ tests ≠ [])
    (found : ∀ selection ∈ asked suites tests, selection.ids t ≠ []) :
    t.select suites tests = .ok (.many ((asked suites tests).flatMap (·.ids t))) := by
  have chosen (selection : Selection) (inside : selection ∈ asked suites tests) :
      selection.choose t = .ok (selection.ids t) := by
    rcases selection.choose_cases t with ⟨-, chosen⟩ | ⟨none, -⟩
    · exact chosen
    · exact absurd none (found selection inside)
  have inSuites : selectEach t.selectSuite suites = .ok (suites.flatMap fun name =>
      (Selection.suite name).ids t) :=
    selectEach_ok fun name inside => chosen (.suite name) (by simp [asked, inside])
  have inTests : selectEach t.selectTest tests = .ok (tests.flatMap fun selector =>
      (Selection.test selector).ids t) :=
    selectEach_ok fun selector inside => chosen (.test selector) (by simp [asked, inside])
  rw [select_eq given, inSuites, inTests]
  simp [asked, bind, Except.bind, pure, Except.pure, List.flatMap_map]

theorem select_error (given : suites ≠ [] ∨ tests ≠ []) {selection : Selection}
    (inside : selection ∈ asked suites tests) (missing : selection.ids t = []) :
    ∃ error, t.select suites tests = .error error := by
  obtain ⟨error, refused⟩ : ∃ error, selection.choose t = .error error := by
    rcases selection.choose_cases t with ⟨found, -⟩ | ⟨-, refused⟩
    · exact absurd missing found
    · exact refused
  rw [select_eq given]
  cases selection with
  | suite name =>
    have inSuites : name ∈ suites := by simpa [asked] using inside
    have refused : t.selectSuite name = .error error := refused
    obtain ⟨first, all⟩ := selectEach_error inSuites refused
    exact ⟨first, by rw [all]; rfl⟩
  | test selector =>
    have inTests : selector ∈ tests := by simpa [asked] using inside
    have refused : t.selectTest selector = .error error := refused
    obtain ⟨later, all⟩ := selectEach_error inTests refused
    cases selectEach t.selectSuite suites with
    | error first => exact ⟨first, rfl⟩
    | ok ids => exact ⟨later, by rw [all]; rfl⟩

theorem select_ok_iff (given : suites ≠ [] ∨ tests ≠ []) {scope : Scope} :
    t.select suites tests = .ok scope ↔
      (∀ selection ∈ asked suites tests, selection.ids t ≠ []) ∧
        scope = .many ((asked suites tests).flatMap (·.ids t)) := by
  by_cases found : ∀ selection ∈ asked suites tests, selection.ids t ≠ []
  case pos =>
    rw [select_ok given found, Except.ok.injEq, eq_comm]
    exact (and_iff_right found).symm
  case neg =>
    have missing : ∃ selection ∈ asked suites tests, selection.ids t = [] := by simpa using found
    obtain ⟨selection, inside, missing⟩ := missing
    obtain ⟨error, refused⟩ := select_error given inside missing
    simp [refused, found]

theorem select_error_iff (given : suites ≠ [] ∨ tests ≠ []) :
    (∃ error, t.select suites tests = .error error) ↔
      ∃ selection ∈ asked suites tests, selection.ids t = [] := by
  constructor
  · rintro ⟨error, refused⟩
    by_contra found
    rw [select_ok given (by simpa using found)] at refused
    cases refused
  · rintro ⟨selection, inside, missing⟩
    exact select_error given inside missing

theorem missing_iff : (∃ selection ∈ asked suites tests, selection.ids t = []) ↔
    (∃ name ∈ suites, ∀ s ∈ t.suites, s.name ≠ name) ∨
      ∃ selector ∈ tests, ∀ s ∈ t.suites, ∀ x ∈ s.tests, ¬ Selects selector s.name x.name := by
  simp only [← Selection.suite_ids_eq_nil_iff, ← Selection.test_ids_eq_nil_iff, asked,
    List.mem_append, List.mem_map, or_and_right, exists_or]
  simp

namespace Keyed

variable (keyed : t.Keyed) (given : suites ≠ [] ∨ tests ≠ []) {scope : Scope}
  (chosen : t.select suites tests = .ok scope)

include keyed given chosen

theorem expand_selected :
    t.expand scope =
      ((asked suites tests).flatMap fun selection =>
        (t.expand .all).filter (selection.Picks ·)).eraseDups := by
  rw [((select_ok_iff given).1 chosen).2, keyed.expand_many, List.flatMap_assoc]
  simp only [Selection.itemsNamed_ids keyed]

theorem mem_expand_selected (item : WorkItem) :
    item ∈ t.expand scope ↔ ∃ s ∈ t.suites, ∃ x ∈ s.tests, item = .ofTest s x ∧
      (s.name ∈ suites ∨ ∃ selector ∈ tests, Selects selector s.name x.name) := by
  have picked : item ∈ t.expand scope ↔ item ∈ t.expand .all ∧
      (item.suite ∈ suites ∨ ∃ selector ∈ tests, Selects selector item.suite item.test) := by
    rw [keyed.expand_selected given chosen, List.mem_eraseDups, List.mem_flatMap,
      ← Selection.picked_iff]
    simp only [List.mem_filter, decide_eq_true_iff]
    tauto
  rw [picked, mem_expand_all]
  constructor
  · rintro ⟨⟨s, member, x, held, rfl⟩, taken⟩
    exact ⟨s, member, x, held, rfl, taken⟩
  · rintro ⟨s, member, x, held, rfl, taken⟩
    exact ⟨⟨s, member, x, held, rfl⟩, taken⟩

theorem expand_selected_order :
    t.expand scope = (List.range (asked suites tests).length).flatMap fun k =>
      (t.expand .all).filter fun item =>
        (asked suites tests).findIdx (Selection.Picks · item) = k := by
  have distinct : (t.expand .all).Nodup := .of_map _ (nodup_expand keyed.toWellFormed .all)
  rw [keyed.expand_selected given chosen]
  exact Search.eraseDups_picks (fun (selection : Selection) item => selection.Picks item) _ distinct

end Keyed

/-- A selection fails exactly for a name of no suite and for a selector that names no test. Otherwise
the plan has the tests that are selected, in every document and each once: in the order of the
selections that pick them first, suites before tests, and then as they stand in the tree. -/
theorem Operated.selection (operated : t.Operated) (given : suites ≠ [] ∨ tests ≠ [])
    (options : RunOptions) :
    ((∃ error, t.select suites tests = .error error) ↔
      (∃ name ∈ suites, ∀ s ∈ t.suites, s.name ≠ name) ∨
        ∃ selector ∈ tests, ':' ∉ selector.toList ∨
          ∃ unit name, Selects selector unit name ∧
            ∀ s ∈ t.suites, ∀ x ∈ s.tests, ¬ (s.name = unit ∧ x.name = name)) ∧
      ∀ scope, t.select suites tests = .ok scope →
        let plan := t.plan scope { options with keyword := none }
        (∀ item, item ∈ plan ↔ ∃ s ∈ t.suites, ∃ x ∈ s.tests, item = .ofTest s x ∧
          (s.name ∈ suites ∨ ∃ selector ∈ tests, Selects selector s.name x.name)) ∧
        (plan.map (·.id)).Nodup ∧
        plan = (List.range (asked suites tests).length).flatMap fun k =>
          (t.plan .all { options with keyword := none }).filter fun item =>
            (asked suites tests).findIdx (Selection.Picks · item) = k := by
  have keyed := operated.keyed
  refine ⟨?fails, fun scope chosen => ?plan⟩
  case fails =>
    rw [select_error_iff given, missing_iff]
    simp only [Selection.selects_nothing_iff]
  case plan =>
    simp only [plan_unfiltered]
    exact ⟨keyed.mem_expand_selected given chosen, nodup_expand keyed.toWellFormed scope,
      keyed.expand_selected_order given chosen⟩

theorem selection_overlapping :
    let t := discovered [
      Document.scan (.ofString "/ws/a.pl") ":- begin_tests(sums).\ntest(add).\ntest(add).\n",
      Document.scan (.ofString "/ws/b.pl")
        ":- begin_tests(sums).\ntest(add).\ntest(sub).\n:- begin_tests(lists).\ntest(last).\n"]
    let tests := ["sums:sub", "lists:last", "sums:add"]
    let scope := Scope.many ["suite:/ws/b.pl:lists", "test:/ws/b.pl:sub", "test:/ws/b.pl:last",
      "test:/ws/a.pl:add", "test:/ws/a.pl:add#2", "test:/ws/b.pl:add"]
    t.Operated ∧ (∃ error, t.select [] ("sums" :: tests) = .error error) ∧
      t.select ["lists"] tests = .ok scope ∧
      (t.plan scope {}).map (·.id.text) = ["test:/ws/b.pl:last", "test:/ws/b.pl:sub",
        "test:/ws/a.pl:add", "test:/ws/a.pl:add#2", "test:/ws/b.pl:add"] := by
  intro t tests scope
  have operated : t.Operated := operated_discovered _
  have chosen : t.select ["lists"] tests = .ok scope := by decide +kernel
  have noColon : ':' ∉ "sums".toList := by decide
  obtain ⟨fails, -⟩ := operated.selection (.inr (List.cons_ne_nil "sums" tests)) {}
  obtain ⟨-, plans⟩ := operated.selection (.inl (List.cons_ne_nil "lists" [])) {}
  obtain ⟨-, -, order⟩ := plans scope chosen
  exact ⟨operated, fails.2 (.inr ⟨"sums", List.mem_cons_self, .inl noColon⟩), chosen,
    (congrArg _ order).trans (by decide +kernel)⟩

end Tree

end TestExplorer
