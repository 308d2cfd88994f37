import TestExplorer.Proofs.Tree.Separation

set_option autoImplicit false

namespace TestExplorer

def Test.mark (x : Test) : TestMark :=
  ⟨x.name, x.line⟩

def Suite.outline (s : Suite) : UnitMark :=
  { name := s.name, line := s.line, tests := s.tests.map Test.mark }

def Tree.outline (t : Tree) : List UnitMark :=
  t.suites.map Suite.outline

namespace UnitMark

variable {units : List UnitMark} {name : String}

def marks (units : List UnitMark) : List TestMark :=
  units.flatMap (·.tests)

def names (units : List UnitMark) : List String :=
  units.map (·.name)

def extend (name : String) (marks : List TestMark) (units : List UnitMark) : List UnitMark :=
  units.map fun unit => if unit.name = name then { unit with tests := unit.tests ++ marks } else unit

def join (units : List UnitMark) (unit : UnitMark) : List UnitMark :=
  if unit.name ∈ names units then extend unit.name unit.tests units else units ++ [unit]

@[simp] theorem names_append (a b : List UnitMark) : names (a ++ b) = names a ++ names b :=
  List.map_append

@[simp] theorem names_extend (name : String) (marks : List TestMark) (units : List UnitMark) :
    names (extend name marks units) = names units := by
  simp only [names, extend, List.map_map]
  refine List.map_congr_left fun unit _ => ?_
  by_cases here : unit.name = name <;> simp [here]

theorem extend_cons (name : String) (marks : List TestMark) (unit : UnitMark)
    (rest : List UnitMark) :
    extend name marks (unit :: rest) =
      (if unit.name = name then { unit with tests := unit.tests ++ marks } else unit) ::
        extend name marks rest :=
  List.map_cons

theorem extend_of_absent (absent : name ∉ names units) (marks : List TestMark) :
    extend name marks units = units := by
  have other (unit : UnitMark) (member : unit ∈ units) : unit.name ≠ name :=
    fun here => absent (List.mem_map.2 ⟨unit, member, here⟩)
  exact (List.map_congr_left fun unit member => if_neg (other unit member)).trans (List.map_id _)

@[simp] theorem extend_append (name : String) (marks : List TestMark) (a b : List UnitMark) :
    extend name marks (a ++ b) = extend name marks a ++ extend name marks b :=
  List.map_append

@[simp] theorem extend_nil (name : String) (units : List UnitMark) :
    extend name [] units = units := by
  simp [extend]

theorem extend_extend (name : String) (a b : List TestMark) (units : List UnitMark) :
    extend name b (extend name a units) = extend name (a ++ b) units := by
  simp only [extend, List.map_map]
  refine List.map_congr_left fun unit _ => ?_
  by_cases here : unit.name = name <;> simp [here]

theorem marks_extend (distinct : (names units).Nodup) (present : name ∈ names units)
    (more : List TestMark) : (marks (extend name more units)).Perm (marks units ++ more) := by
  induction units with
  | nil => contradiction
  | cons unit rest ih =>
    obtain ⟨fresh, distinct'⟩ := List.nodup_cons.1 distinct
    by_cases here : unit.name = name
    · have absent : name ∉ names rest := here ▸ fresh
      have first : marks (extend name more (unit :: rest)) = unit.tests ++ more ++ marks rest := by
        rw [extend_cons, if_pos here, extend_of_absent absent]
        rfl
      rw [first, show marks (unit :: rest) = unit.tests ++ marks rest from rfl]
      grind
    · have present' : name ∈ names rest := by
        simpa [names, Ne.symm here] using present
      have first : marks (extend name more (unit :: rest)) =
          unit.tests ++ marks (extend name more rest) := by
        rw [extend_cons, if_neg here]
        rfl
      rw [first, show marks (unit :: rest) = unit.tests ++ marks rest from rfl, List.append_assoc]
      exact (ih distinct' present').append_left unit.tests

theorem names_join (distinct : (names units).Nodup) (unit : UnitMark) :
    (names (join units unit)).Nodup ∧
      ∀ name, name ∈ names (join units unit) ↔ name ∈ names units ∨ name = unit.name := by
  unfold join
  split
  next present => exact ⟨by simpa using distinct, by simp; grind⟩
  next absent =>
    refine ⟨?_, by simp [names]⟩
    rw [names_append, List.nodup_append_comm]
    exact List.nodup_cons.2 ⟨absent, distinct⟩

theorem marks_join (distinct : (names units).Nodup) (unit : UnitMark) :
    (marks (join units unit)).Perm (marks units ++ unit.tests) := by
  unfold join
  split
  next present => exact marks_extend distinct present unit.tests
  next => simp [marks]

theorem joins (distinct : (names units).Nodup) (more : List UnitMark) :
    (names (more.foldl join units)).Nodup ∧
      (∀ name, name ∈ names (more.foldl join units) ↔ name ∈ names units ∨ name ∈ names more) ∧
      (marks (more.foldl join units)).Perm (marks units ++ marks more) := by
  induction more generalizing units with
  | nil => simpa [names, marks] using distinct
  | cons unit rest ih =>
    have ⟨distinct', known⟩ := names_join distinct unit
    have ⟨last, all, held⟩ := ih distinct'
    refine ⟨last, fun name => ?_, ?_⟩
    · rw [List.foldl_cons, all, known]
      simp [names, or_assoc]
    · refine held.trans (((marks_join distinct unit).append_right _).trans ?_)
      simp [marks]

end UnitMark

theorem SuiteId.name_inj {p : Path} {m n : String} (same : SuiteId.of p m = SuiteId.of p n) :
    m = n := by
  simpa [SuiteId.of, Text.append_left_inj] using same

namespace Tree

structure Sole (p : Path) (t : Tree) : Prop where
  formed : t.WellFormed
  path : ∀ s ∈ t.suites, s.path = p

theorem sole_empty (p : Path) : Sole p {} :=
  ⟨wellFormed_empty, by simp⟩

variable {p : Path} {t t' : Tree}

theorem marks_outline (t : Tree) : UnitMark.marks t.outline = t.tests.map Test.mark := by
  simp [UnitMark.marks, outline, tests, List.flatMap_map, List.map_flatMap, Suite.outline]

namespace Sole

theorem key (sole : t.Sole p) {s : Suite} (member : s ∈ t.suites) :
    s.id = SuiteId.of p s.name := by
  rw [sole.formed.keys s member, sole.path s member]

theorem names_nodup (sole : t.Sole p) : (UnitMark.names t.outline).Nodup := by
  have names : UnitMark.names t.outline = t.suites.map (·.name) := by
    simp [UnitMark.names, outline, Suite.outline]
  have ids : (t.suites.map (·.name)).map (SuiteId.of p) = t.suites.map (·.id) := by
    rw [List.map_map]
    exact List.map_congr_left fun s member => (sole.key member).symm
  rw [names]
  exact .of_map (SuiteId.of p) (ids ▸ sole.formed.suiteIds)

theorem mem_names (sole : t.Sole p) (unit : String) :
    unit ∈ UnitMark.names t.outline ↔ ∃ s ∈ t.suites, s.id = SuiteId.of p unit := by
  simp only [UnitMark.names, outline, List.map_map, List.mem_map]
  constructor
  · rintro ⟨s, member, rfl⟩
    exact ⟨s, member, sole.key member⟩
  · rintro ⟨s, member, id⟩
    exact ⟨s, member, SuiteId.name_inj ((sole.key member).symm.trans id)⟩

theorem addSuite (sole : t.Sole p) {name : String} {line : Nat} {s : Suite}
    (added : t.addSuite name p line = .ok (t', s)) :
    t'.Sole p ∧ t'.outline = t.outline ++ [⟨name, line, []⟩] := by
  refine ⟨⟨sole.formed.addSuite added, fun s' member => ?_⟩, ?_⟩
  · rcases mem_addSuite added member with old | rfl
    · exact sole.path s' old
    · rfl
  · obtain ⟨-, rfl, rfl⟩ := addSuite_ok added
    simp [outline, Suite.outline]

theorem addTestWithId (sole : t.Sole p) {unit name : String} {id : TestId} {line : Nat} {x : Test}
    (added : t.addTestWithId (SuiteId.of p unit) id name p line = .ok (t', x)) :
    t'.Sole p ∧ t'.outline = UnitMark.extend unit [⟨name, line⟩] t.outline := by
  refine ⟨⟨sole.formed.addTestWithId added, fun s' member => ?_⟩, ?_⟩
  · obtain ⟨s, old, -, -, home, -⟩ := mem_addTestWithId added member
    exact home.trans (sole.path s old)
  · obtain ⟨-, new, before, s, after, parts, holds, rfl⟩ := addTestWithId_ok added
    have named : s.name = unit := SuiteId.name_inj ((sole.key (by simp [parts])).symm.trans holds)
    -- The names are distinct, so the suite that takes the test is the only one to extend.
    have distinct := sole.names_nodup
    simp only [outline, parts, List.map_append, List.map_cons, UnitMark.names_append] at distinct
    obtain ⟨-, last, apart⟩ := List.nodup_append'.1 distinct
    have absent : unit ∉ UnitMark.names (before.map Suite.outline) :=
      fun found => apart found (by simp [UnitMark.names, Suite.outline, named])
    have absent' : unit ∉ UnitMark.names (after.map Suite.outline) := by
      simpa [UnitMark.names, Suite.outline, named] using (List.nodup_cons.1 last).1
    have taken : Suite.outline { s with tests := s.tests ++ [x] } =
        { s.outline with tests := s.outline.tests ++ [⟨name, line⟩] } := by
      simp [Suite.outline, Test.mark, new]
    rw [outline, outline, parts, List.map_append, List.map_append, UnitMark.extend_append,
      UnitMark.extend_of_absent absent, List.map_cons, List.map_cons, UnitMark.extend_cons,
      UnitMark.extend_of_absent absent', if_pos (show s.outline.name = unit from named), taken]

end Sole

end Tree

namespace Document

variable {p : Path}

theorem outline_insertTests {i : Insertion} (sole : i.tree.Sole p) {unit : String}
    (present : unit ∈ UnitMark.names i.tree.outline) (marks : List TestMark) :
    let done := (marks.foldl (insertTest p (SuiteId.of p unit)) i).tree
    done.Sole p ∧ done.outline = UnitMark.extend unit marks i.tree.outline := by
  induction marks generalizing i with
  | nil => exact ⟨sole, (UnitMark.extend_nil _ _).symm⟩
  | cons mark rest ih =>
    obtain ⟨t', x, added, done⟩ := insertTest_eq p ((sole.mem_names unit).1 present) mark
    have tree : (insertTest p (SuiteId.of p unit) i mark).tree = t' := by rw [done]
    obtain ⟨sole', outline⟩ := sole.addTestWithId added
    have later := ih (i := insertTest p (SuiteId.of p unit) i mark) (tree ▸ sole')
      (by simpa [tree, outline] using present)
    simpa [tree, outline, UnitMark.extend_extend] using later

theorem outline_insertUnit {i : Insertion} (sole : i.tree.Sole p) (unit : UnitMark) :
    (insertUnit p i unit).tree.Sole p ∧
      (insertUnit p i unit).tree.outline = UnitMark.join i.tree.outline unit := by
  unfold insertUnit
  cases result : i.tree.addSuite unit.name p unit.line with
  | ok parts =>
    obtain ⟨tree, s⟩ := parts
    obtain ⟨fresh, new, -⟩ := Tree.addSuite_ok result
    obtain ⟨sole', outline⟩ := sole.addSuite result
    have absent : unit.name ∉ UnitMark.names i.tree.outline := by
      rw [sole.mem_names]
      exact fun ⟨old, member, same⟩ => fresh old member same
    let opened : Insertion :=
      { i with tree, found := { i.found with suites := i.found.suites + 1 } }
    have named : s.id = SuiteId.of p unit.name := by rw [new]
    have present : unit.name ∈ UnitMark.names opened.tree.outline := by
      simp [opened, outline, UnitMark.names]
    have inside := outline_insertTests (i := opened) sole' present unit.tests
    simp only [named]
    refine ⟨inside.1, inside.2.trans ?_⟩
    rw [UnitMark.join, if_neg absent, outline, UnitMark.extend_append,
      UnitMark.extend_of_absent absent]
    simp [UnitMark.extend]
  | error error =>
    obtain ⟨rfl, there⟩ := Tree.addSuite_error result
    have present := (sole.mem_names unit.name).2 there
    rw [UnitMark.join, if_pos present]
    exact outline_insertTests (i := i.note _) sole present unit.tests

theorem outline_insertInto {t : Tree} {d : Document} (sole : t.Sole d.path) :
    (d.insertInto t).tree.Sole d.path ∧
      (d.insertInto t).tree.outline = d.units.foldl UnitMark.join t.outline := by
  have inserted (units : List UnitMark) {i : Insertion} (sole : i.tree.Sole d.path) :
      (units.foldl (insertUnit d.path) i).tree.Sole d.path ∧
        (units.foldl (insertUnit d.path) i).tree.outline =
          units.foldl UnitMark.join i.tree.outline := by
    induction units generalizing i with
    | nil => exact ⟨sole, rfl⟩
    | cons unit rest ih =>
      obtain ⟨sole', outline⟩ := outline_insertUnit sole unit
      rw [List.foldl_cons, List.foldl_cons, ← outline]
      exact ih sole'
  exact inserted d.units sole

end Document

end TestExplorer
