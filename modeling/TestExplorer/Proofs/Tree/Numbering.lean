import Mathlib.Data.Finset.Card
import TestExplorer.Proofs.Tree.Repetition

/-!
The tree of one document. Its suites are the units that are the first of their names, and a test has
the ordinal that its name has reached among all tests declared so far, whatever units they are in.
-/

set_option autoImplicit false

namespace TestExplorer

/-! ## Declarations -/

structure Declared where
  unit : String
  mark : TestMark
  deriving DecidableEq

namespace Declared

def names (name : String) (ds : List Declared) : Nat :=
  ds.countP (·.mark.name = name)

def test (p : Path) (d : Declared) (ordinal : Nat) : Test where
  id := TestId.of p d.mark.name ordinal
  name := d.mark.name
  path := p
  line := d.mark.line
  suite := SuiteId.of p d.unit

-- The tests of a list of declarations. The ordinal counts the name up to the declaration itself.
def tests (p : Path) (ds : List Declared) : List Test :=
  ds.mapIdx fun k d => d.test p (names d.mark.name (ds.take (k + 1)))

theorem names_concat (name : String) (ds : List Declared) (last : Declared) :
    names name (ds ++ [last]) = names name ds + if last.mark.name = name then 1 else 0 := by
  simp [names]

theorem tests_concat (p : Path) (ds : List Declared) (last : Declared) :
    tests p (ds ++ [last]) = tests p ds ++ [last.test p (names last.mark.name ds + 1)] := by
  have before (k : Nat) (within : k < ds.length) : (ds ++ [last]).take (k + 1) = ds.take (k + 1) :=
    List.take_append_of_le_length within
  have last' : (ds ++ [last]).take (ds.length + 1) = ds ++ [last] := List.take_of_length_le (by simp)
  rw [tests, List.mapIdx_concat, last', names_concat, if_pos rfl]
  congr 1
  refine List.ext_getElem (by simp [tests]) fun k within _ => ?_
  simp only [List.length_mapIdx] at within
  simp [tests, before k within]

theorem suite_of_mem_tests {p : Path} {ds : List Declared} {x : Test} (member : x ∈ tests p ds) :
    ∃ d ∈ ds, x.suite = SuiteId.of p d.unit := by
  obtain ⟨k, within, rfl⟩ := List.mem_mapIdx.1 member
  exact ⟨ds[k], List.getElem_mem within, rfl⟩

end Declared

namespace UnitMark

def firsts : List UnitMark → List UnitMark
  | [] => []
  | unit :: rest => unit :: (firsts rest).filter (·.name ≠ unit.name)

def declared (units : List UnitMark) : List Declared :=
  units.flatMap fun unit => unit.tests.map fun mark => ⟨unit.name, mark⟩

theorem mem_names_firsts (name : String) (units : List UnitMark) :
    name ∈ names (firsts units) ↔ name ∈ names units := by
  induction units with
  | nil => rfl
  | cons unit rest ih =>
    by_cases here : name = unit.name
    · simp [firsts, names, here]
    · simp only [names, List.mem_map] at ih
      simp [firsts, names, here]
      grind

theorem nodup_names_firsts (units : List UnitMark) : (names (firsts units)).Nodup := by
  induction units with
  | nil => exact .nil
  | cons unit rest ih =>
    have kept : ((firsts rest).filter (·.name ≠ unit.name)).Sublist (firsts rest) :=
      List.filter_sublist
    refine List.nodup_cons.2 ⟨?_, ih.sublist (kept.map _)⟩
    simp

theorem firsts_concat (units : List UnitMark) (last : UnitMark) :
    firsts (units ++ [last]) =
      firsts units ++ if last.name ∈ names units then [] else [last] := by
  induction units with
  | nil => simp [firsts, names]
  | cons unit rest ih =>
    rw [List.cons_append, firsts, ih, List.filter_append, firsts, List.cons_append]
    congr 2
    by_cases here : last.name = unit.name
    · by_cases later : last.name ∈ names rest <;> simp [names, here]
    · by_cases later : last.name ∈ names rest <;> simp_all [names]

theorem length_firsts (units : List UnitMark) :
    (firsts units).length = (names units).toFinset.card := by
  have same : (names units).toFinset = (names (firsts units)).toFinset := by
    ext name
    simp [mem_names_firsts]
  rw [same, List.toFinset_card_of_nodup (nodup_names_firsts units), names, List.length_map]

end UnitMark

/-! ## The tree that the declarations make -/

def Suite.ofUnit (p : Path) (tests : List Test) (unit : UnitMark) : Suite where
  id := SuiteId.of p unit.name
  name := unit.name
  path := p
  line := unit.line
  tests := tests.filter (·.suite = SuiteId.of p unit.name)

-- One suite for each unit, which has the declared tests of its name.
def Tree.ofUnits (p : Path) (units : List UnitMark) (ds : List Declared) : Tree :=
  ⟨units.map (Suite.ofUnit p (Declared.tests p ds))⟩

namespace Tree

variable {t t' : Tree}

theorem suites_addTestWithId (distinct : (t.suites.map (·.id)).Nodup) {suite : SuiteId} {id : TestId}
    {name : String} {path : Path} {line : Nat} {x : Test}
    (added : t.addTestWithId suite id name path line = .ok (t', x)) :
    t'.suites = t.suites.map fun s =>
      if s.id = suite then { s with tests := s.tests ++ [x] } else s := by
  obtain ⟨-, -, before, s, after, parts, holds, rfl⟩ := addTestWithId_ok added
  rw [parts, List.map_append, List.map_cons, List.nodup_append', List.nodup_cons] at distinct
  obtain ⟨-, ⟨last, -⟩, apart⟩ := distinct
  have untouched (others : List Suite) (absent : ∀ s' ∈ others, s'.id ≠ suite) :
      others.map (fun s => if s.id = suite then { s with tests := s.tests ++ [x] } else s) =
        others :=
    (List.map_congr_left fun s' member => if_neg (absent s' member)).trans (List.map_id _)
  rw [parts, List.map_append, List.map_cons, if_pos holds, untouched before, untouched after]
  · exact fun s' member same => last (List.mem_map.2 ⟨s', member, same.trans holds.symm⟩)
  · intro s' member same
    exact apart (List.mem_map_of_mem member) (by simp [same, holds])

variable {p : Path} {units : List UnitMark} {ds : List Declared}

theorem ids_ofUnits (p : Path) (units : List UnitMark) (ds : List Declared) :
    (ofUnits p units ds).suites.map (·.id) = (UnitMark.names units).map (SuiteId.of p) := by
  simp [ofUnits, Suite.ofUnit, UnitMark.names]

theorem nodup_ids_ofUnits (distinct : (UnitMark.names units).Nodup) :
    ((ofUnits p units ds).suites.map (·.id)).Nodup := by
  rw [ids_ofUnits]
  exact distinct.map fun _ _ same => SuiteId.name_inj same

theorem mem_ids_ofUnits (name : String) :
    (∃ s ∈ (ofUnits p units ds).suites, s.id = SuiteId.of p name) ↔ name ∈ UnitMark.names units := by
  rw [← List.mem_map, ids_ofUnits, List.mem_map]
  exact ⟨fun ⟨_, member, same⟩ => SuiteId.name_inj same ▸ member, fun member => ⟨name, member, rfl⟩⟩

theorem addTestWithId_ofUnits (distinct : (UnitMark.names units).Nodup) (d : Declared) {x : Test}
    (added : (ofUnits p units ds).addTestWithId (SuiteId.of p d.unit)
      (TestId.of p d.mark.name (Declared.names d.mark.name ds + 1)) d.mark.name p d.mark.line =
        .ok (t', x)) :
    t' = ofUnits p units (ds ++ [d]) := by
  have suites := suites_addTestWithId (nodup_ids_ofUnits distinct) added
  obtain ⟨-, new, -⟩ := addTestWithId_ok added
  have next : x = d.test p (Declared.names d.mark.name ds + 1) := new
  refine congrArg Tree.mk (suites.trans ?_)
  simp only [ofUnits, List.map_map]
  refine List.map_congr_left fun unit _ => ?_
  by_cases here : unit.name = d.unit
  · simp [Suite.ofUnit, Declared.tests_concat, next, here, Declared.test]
  · have apart : SuiteId.of p unit.name ≠ SuiteId.of p d.unit := fun same => here (SuiteId.name_inj same)
    simp [Suite.ofUnit, Declared.tests_concat, apart, apart.symm, Declared.test]

theorem addSuite_ofUnits (unit : UnitMark) (homes : ∀ d ∈ ds, d.unit ≠ unit.name) {s : Suite}
    (added : (ofUnits p units ds).addSuite unit.name p unit.line = .ok (t', s)) :
    t' = ofUnits p (units ++ [unit]) ds := by
  obtain ⟨-, rfl, rfl⟩ := addSuite_ok added
  have bare : (Declared.tests p ds).filter (·.suite = SuiteId.of p unit.name) = [] := by
    rw [List.filter_eq_nil_iff]
    intro x member
    obtain ⟨d, held, home⟩ := Declared.suite_of_mem_tests member
    simpa [home] using fun same => homes d held (SuiteId.name_inj same)
  simp [ofUnits, Suite.ofUnit, bare]

end Tree

namespace Document

/-- What an insertion has made of the units opened so far and of the tests declared so far. -/
structure Entered (p : Path) (warnings : List Warning) (units : List UnitMark) (ds : List Declared)
    (i : Insertion) : Prop where
  tree : i.tree = Tree.ofUnits p (UnitMark.firsts units) ds
  found : i.found =
    { path := p, suites := (UnitMark.firsts units).length, tests := ds.length, warnings }
  homes : ∀ d ∈ ds, d.unit ∈ UnitMark.names units
  numbered : i.tree.Numbered p
  counted : ∀ name, i.tree.occurrences name = Declared.names name ds

namespace Entered

variable {p : Path} {warnings : List Warning} {units : List UnitMark} {ds : List Declared}
  {i : Insertion}

theorem insertTest (entered : Entered p warnings units ds i) {unit : String}
    (opened : unit ∈ UnitMark.names units) {mark : TestMark} (plain : '#' ∉ mark.name.toList) :
    Entered p warnings units (ds ++ [⟨unit, mark⟩])
      (Document.insertTest p (SuiteId.of p unit) i mark) := by
  have id : i.tree.freeTestId p mark.name =
      TestId.of p mark.name (Declared.names mark.name ds + 1) := by
    rw [entered.numbered.freeTestId plain, entered.counted]
  have present : ∃ s ∈ i.tree.suites, s.id = SuiteId.of p unit := by
    rw [entered.tree, Tree.mem_ids_ofUnits, UnitMark.mem_names_firsts]
    exact opened
  obtain ⟨t', x, added, done⟩ := insertTest_eq p present mark
  have tree : (Document.insertTest p (SuiteId.of p unit) i mark).tree = t' := by rw [done]
  have found : (Document.insertTest p (SuiteId.of p unit) i mark).found =
      { i.found with tests := i.found.tests + 1 } := by rw [done]
  constructor
  case tree =>
    rw [id, entered.tree] at added
    rw [tree, Tree.addTestWithId_ofUnits (UnitMark.nodup_names_firsts units) ⟨unit, mark⟩ added]
  case found => simp [found, entered.found]
  case homes =>
    intro d member
    rcases List.mem_append.1 member with old | new
    · exact entered.homes d old
    · exact List.mem_singleton.1 new ▸ opened
  case numbered =>
    rw [tree]
    exact entered.numbered.addTestWithId plain added
  case counted =>
    intro name
    rw [tree, Tree.occurrences_addTestWithId added, entered.counted, Declared.names_concat]

theorem insertTests (entered : Entered p warnings units ds i) {unit : String}
    (opened : unit ∈ UnitMark.names units) {marks : List TestMark}
    (plain : ∀ mark ∈ marks, '#' ∉ mark.name.toList) :
    Entered p warnings units (ds ++ marks.map fun mark => ⟨unit, mark⟩)
      (marks.foldl (Document.insertTest p (SuiteId.of p unit)) i) := by
  induction marks generalizing ds i with
  | nil => simpa using entered
  | cons mark rest ih =>
    have next := entered.insertTest opened (plain mark List.mem_cons_self)
    have later := ih next fun other member => plain other (List.mem_cons_of_mem _ member)
    simpa using later

theorem insertUnit (entered : Entered p warnings units ds i) {unit : UnitMark}
    (plain : ∀ mark ∈ unit.tests, '#' ∉ mark.name.toList) :
    Entered p warnings (units ++ [unit]) (ds ++ unit.tests.map fun mark => ⟨unit.name, mark⟩)
      (Document.insertUnit p i unit) := by
  have opened : unit.name ∈ UnitMark.names (units ++ [unit]) := by simp [UnitMark.names]
  have homes (d : Declared) (member : d ∈ ds) : d.unit ∈ UnitMark.names (units ++ [unit]) := by
    simp [entered.homes d member]
  unfold Document.insertUnit
  cases result : i.tree.addSuite unit.name p unit.line with
  | ok parts =>
    obtain ⟨t', s⟩ := parts
    obtain ⟨fresh, new, suites⟩ := Tree.addSuite_ok result
    have absent : unit.name ∉ UnitMark.names units := by
      rw [← UnitMark.mem_names_firsts, ← Tree.mem_ids_ofUnits, ← entered.tree]
      rintro ⟨old, member, same⟩
      exact fresh old member same
    have firsts : UnitMark.firsts (units ++ [unit]) = UnitMark.firsts units ++ [unit] := by
      rw [UnitMark.firsts_concat, if_neg absent]
    have bare : t'.tests = i.tree.tests := by simp [suites, new, Tree.tests]
    have begun : Entered p warnings (units ++ [unit]) ds
        { i with tree := t', found := { i.found with suites := i.found.suites + 1 } } := by
      constructor
      case tree =>
        rw [entered.tree] at result
        rw [firsts]
        exact Tree.addSuite_ofUnits unit
          (fun d member same => absent (same ▸ entered.homes d member)) result
      case found => simp [entered.found, firsts]
      case homes => exact homes
      case numbered => simpa [Tree.Numbered, Tree.hasTest_iff, Tree.occurrences, bare] using entered.numbered
      case counted => simpa [Tree.occurrences, bare] using entered.counted
    have named : s.id = SuiteId.of p unit.name := by rw [new]
    simp only [named]
    exact begun.insertTests opened plain
  | error error =>
    obtain ⟨rfl, there⟩ := Tree.addSuite_error result
    have present : unit.name ∈ UnitMark.names units := by
      rwa [entered.tree, Tree.mem_ids_ofUnits, UnitMark.mem_names_firsts] at there
    have firsts : UnitMark.firsts (units ++ [unit]) = UnitMark.firsts units := by
      rw [UnitMark.firsts_concat, if_pos present, List.append_nil]
    have begun : Entered p warnings (units ++ [unit]) ds
        (i.note (.reopened unit.line unit.name)) :=
      ⟨firsts ▸ entered.tree, firsts ▸ entered.found, homes, entered.numbered, entered.counted⟩
    exact begun.insertTests opened plain

theorem insertUnits (entered : Entered p warnings units ds i) {more : List UnitMark}
    (plain : ∀ mark ∈ UnitMark.marks more, '#' ∉ mark.name.toList) :
    Entered p warnings (units ++ more) (ds ++ UnitMark.declared more)
      (more.foldl (Document.insertUnit p) i) := by
  induction more generalizing units ds i with
  | nil => simpa [UnitMark.declared] using entered
  | cons unit rest ih =>
    simp only [UnitMark.marks, List.flatMap_cons, List.mem_append] at plain
    have next := entered.insertUnit fun mark marked => plain mark (.inl marked)
    have later := ih next fun mark marked => plain mark (.inr marked)
    simpa [UnitMark.declared] using later

end Entered

theorem Hashless.entered {d : Document} (hashless : d.Hashless) :
    Entered d.path d.warnings d.units (UnitMark.declared d.units) (d.insertInto {}) := by
  have start : Entered d.path d.warnings [] []
      { tree := {}, found := { path := d.path, suites := 0, tests := 0, warnings := d.warnings },
        notices := d.warnings.map .malformed } :=
    ⟨rfl, rfl, by simp, Tree.numbered_empty d.path, fun _ => rfl⟩
  exact start.insertUnits hashless

theorem length_declared (d : Document) : (UnitMark.declared d.units).length = d.testCount := by
  simp [UnitMark.declared, testCount, List.length_flatMap, List.sum_eq_foldr]

/-- A scanned document, alone in a tree. There is one suite for each name of a unit, where the name
comes first and with the line of its first opening, and it has the tests of all its openings in their
order. A test has the ordinal that its name has reached among all tests down to it. -/
theorem insert_scanned (path : Path) (source : String) (hashless : (scan path source).Hashless) :
    let d := scan path source
    let declared := UnitMark.declared d.units
    let tests : List Test := declared.mapIdx fun k test =>
      { id := TestId.of path test.mark.name
          ((declared.take (k + 1)).countP (·.mark.name = test.mark.name))
        name := test.mark.name, path, line := test.mark.line, suite := SuiteId.of path test.unit }
    (d.insertInto {}).tree =
      ⟨(UnitMark.firsts d.units).map fun unit =>
        { id := SuiteId.of path unit.name, name := unit.name, path, line := unit.line
          tests := tests.filter (·.suite = SuiteId.of path unit.name) }⟩ ∧
    (d.insertInto {}).found =
      { path, suites := (UnitMark.names d.units).toFinset.card, tests := d.testCount
        warnings := d.warnings } := by
  intro d declared tests
  have entered := Hashless.entered hashless
  refine ⟨entered.tree, ?_⟩
  rw [← UnitMark.length_firsts, ← d.length_declared]
  exact entered.found

theorem insert_scanned_repeated_across_units :
    let path := Path.ofString "a.pl"
    let source := ":- begin_tests(u).\ntest(a).\ntest(b).\n:- begin_tests(v).\ntest(a).\n" ++
      ":- begin_tests(u).\ntest(a).\n"
    let d := scan path source
    let test (unit name : String) (ordinal line : Nat) : Test :=
      ⟨TestId.of path name ordinal, name, path, line, SuiteId.of path unit⟩
    d.Hashless ∧
      (d.insertInto {}).tree =
        ⟨[⟨SuiteId.of path "u", "u", path, 0, [test "u" "a" 1 1, test "u" "b" 1 2, test "u" "a" 3 6]⟩,
          ⟨SuiteId.of path "v", "v", path, 3, [test "v" "a" 2 4]⟩]⟩ ∧
      (d.insertInto {}).found = ⟨path, 2, 4, []⟩ := by
  intro path source d test
  have hashless : d.Hashless := by
    unfold Hashless
    decide +kernel
  obtain ⟨tree, found⟩ := insert_scanned path source hashless
  exact ⟨hashless, tree.trans (by decide +kernel), found.trans (by decide +kernel)⟩

end Document

end TestExplorer
