import TestExplorer.Proofs.Scan.Spans
import TestExplorer.Proofs.Tree.Outline
import TestExplorer.Proofs.Tree.Part

set_option autoImplicit false

namespace TestExplorer

namespace UnitMark

def repeated (n : Nat) (units : List UnitMark) : List UnitMark :=
  units.map fun unit => { unit with tests := (List.replicate n unit.tests).flatten }

def named (name : String) (units : List UnitMark) : List UnitMark :=
  units.filter (·.name = name)

theorem named_concat (name : String) (units : List UnitMark) (last : UnitMark) :
    marks (named name (units ++ [last])) =
      marks (named name units) ++ if last.name = name then last.tests else [] := by
  by_cases here : last.name = name <;> simp [named, marks, here]

theorem names_joined (units : List UnitMark) :
    (names (units.foldl join [])).Nodup ∧
      ∀ name, name ∈ names (units.foldl join []) ↔ name ∈ names units := by
  have ⟨distinct, known, _⟩ := joins (show (names []).Nodup from .nil) units
  exact ⟨distinct, by simpa [names] using known⟩

theorem tests_joined (units : List UnitMark) :
    ∀ unit ∈ units.foldl join [], unit.tests = marks (named unit.name units) := by
  induction units using List.reverseRecOn with
  | nil => simp
  | append_singleton units last ih =>
    have ⟨_, known⟩ := names_joined units
    rw [List.foldl_append, List.foldl_cons, List.foldl_nil]
    intro unit member
    rw [named_concat]
    rw [join] at member
    split at member
    next present =>
      obtain ⟨old, held, rfl⟩ := List.mem_map.1 member
      have before := ih old held
      by_cases here : old.name = last.name
      · simp [here, before]
      · simp [here, Ne.symm here, before]
    next absent =>
      rcases List.mem_append.1 member with held | new
      · have other : ¬ last.name = unit.name :=
          fun same => absent (List.mem_map.2 ⟨unit, held, same.symm⟩)
        simp [ih unit held, other]
      · obtain rfl := List.mem_singleton.1 new
        have first : named unit.name units = [] := by
          rw [known] at absent
          simpa [named, names] using absent
        simp [first, marks]

theorem foldl_join_known {units : List UnitMark} (distinct : (names units).Nodup)
    (more : List UnitMark) (known : names more ⊆ names units) :
    more.foldl join units =
      units.map fun unit => { unit with tests := unit.tests ++ marks (named unit.name more) } := by
  induction more using List.reverseRecOn with
  | nil => simp [named, marks]
  | append_singleton more last ih =>
    rw [names_append] at known
    have before := ih fun name member => known (List.mem_append_left _ member)
    obtain ⟨-, all, -⟩ := joins distinct more
    have present : last.name ∈ names (more.foldl join units) :=
      (all _).2 (.inl (known (by simp [names])))
    rw [List.foldl_append, List.foldl_cons, List.foldl_nil, join, if_pos present, before, extend,
      List.map_map]
    refine List.map_congr_left fun unit _ => ?_
    rw [named_concat]
    by_cases here : unit.name = last.name
    · simp [here]
    · simp [here, Ne.symm here]

theorem foldl_join_joined (n : Nat) (units : List UnitMark) :
    units.foldl join (repeated (n + 1) (units.foldl join [])) =
      repeated (n + 2) (units.foldl join []) := by
  have ⟨distinct, known⟩ := names_joined units
  have names_repeated : names (repeated (n + 1) (units.foldl join [])) =
      names (units.foldl join []) := by
    simp [names, repeated]
  rw [foldl_join_known (names_repeated ▸ distinct) units
    (names_repeated ▸ fun name member => (known name).2 member)]
  simp only [repeated, List.map_map]
  refine List.map_congr_left fun unit member => ?_
  simp [← tests_joined units unit member, List.replicate_succ' (n := n + 1)]

end UnitMark

/-! ## Ordinals -/

namespace Tree

def occurrences (t : Tree) (name : String) : Nat :=
  t.tests.countP (·.name = name)

theorem occurrences_addTestWithId {t t' : Tree} {suite : SuiteId} {id : TestId} {name : String}
    {path : Path} {line : Nat} {x : Test}
    (added : t.addTestWithId suite id name path line = .ok (t', x)) (other : String) :
    t'.occurrences other = t.occurrences other + if name = other then 1 else 0 := by
  obtain ⟨-, new, -⟩ := addTestWithId_ok added
  rw [occurrences, (tests_addTestWithId added).countP_eq, List.countP_cons, new]
  simp [occurrences]

/-- The tests of each name have the first ordinals. -/
def Numbered (p : Path) (t : Tree) : Prop :=
  ∀ name, '#' ∉ name.toList → ∀ k, 1 ≤ k →
    (t.hasTest (TestId.of p name k) ↔ k ≤ t.occurrences name)

theorem numbered_empty (p : Path) : Numbered p {} := by
  intro name _ k first
  simp [hasTest_iff, occurrences, tests]
  omega

theorem Numbered.freeTestId {p : Path} {t : Tree} (numbered : t.Numbered p) {name : String}
    (plain : '#' ∉ name.toList) :
    t.freeTestId p name = TestId.of p name (t.occurrences name + 1) := by
  obtain ⟨k, first, -, found, free, taken⟩ := t.freeTestId_least p name
  have beyond : ¬ k ≤ t.occurrences name := fun within => free ((numbered name plain k first).2 within)
  have next : k ≤ t.occurrences name + 1 := by
    by_contra late
    have held := taken (t.occurrences name + 1) (by omega) (by omega)
    have within := (numbered name plain _ (by omega)).1 held
    omega
  rw [found, show k = t.occurrences name + 1 by omega]

theorem Numbered.addTestWithId {p : Path} {t t' : Tree} (numbered : t.Numbered p) {suite : SuiteId}
    {name : String} {line : Nat} {x : Test} (plain : '#' ∉ name.toList)
    (added : t.addTestWithId suite (t.freeTestId p name) name p line = .ok (t', x)) :
    t'.Numbered p := by
  have all := tests_addTestWithId added
  obtain ⟨-, new, -⟩ := addTestWithId_ok added
  rw [numbered.freeTestId plain] at new
  intro other plain' k first
  have held : t'.hasTest (TestId.of p other k) ↔
      x.id = TestId.of p other k ∨ t.hasTest (TestId.of p other k) := by
    simp [hasTest_iff, all.mem_iff]
  have count := occurrences_addTestWithId added other
  rw [held, numbered other plain' k first, count, new]
  by_cases same : name = other
  · subst same
    simp only [if_true]
    constructor
    · rintro (here | within)
      · exact (TestId.ordinal_inj (by omega) first here).ge
      · omega
    · intro within
      rcases Nat.lt_or_eq_of_le within with below | rfl
      · exact .inr (by omega)
      · exact .inl rfl
  · have apart : TestId.of p name (t.occurrences name + 1) ≠ TestId.of p other k :=
      fun here => same (TestId.name_inj plain plain' here)
    simp [same, apart]

end Tree

namespace Document

def marks (d : Document) : List TestMark :=
  UnitMark.marks d.units

def declares (d : Document) (name : String) : Nat :=
  d.marks.countP (·.name = name)

def Hashless (d : Document) : Prop :=
  ∀ mark ∈ d.marks, '#' ∉ mark.name.toList

theorem Hashless.insertInto {d : Document} (hashless : d.Hashless) {t : Tree}
    (numbered : t.Numbered d.path) : (d.insertInto t).tree.Numbered d.path := by
  refine d.insertInto_induction t numbered ?suite ?test
  case suite =>
    intro t t' s unit _ numbered added
    have same : t'.tests = t.tests := by
      obtain ⟨-, rfl, rfl⟩ := Tree.addSuite_ok added
      simp [Tree.tests]
    simpa [Tree.Numbered, Tree.hasTest_iff, Tree.occurrences, same] using numbered
  case test =>
    intro t t' x unit known mark marked numbered added
    have declared : mark ∈ d.marks := List.mem_flatMap.2 ⟨unit, known, marked⟩
    exact numbered.addTestWithId (hashless mark declared) added

theorem lines_unitsOf (items : List ScanItem) :
    ((spanTests items ++ UnitMark.marks (unitsOf items)).map (·.line)).Sublist
      (items.map (·.line)) := by
  induction items with
  | nil => exact .slnil
  | cons item rest ih =>
    have beyond := ((List.sublist_append_right _ _).map TestMark.line).trans ih
    cases item with
    | event e =>
      cases e with
      | suiteBegin name line => exact ih.cons line
      | suiteEnd line => exact beyond.cons line
      | testCase name line => exact ih.cons_cons line
    | warning w =>
      by_cases opens : w.marker = .suiteBegin
      · rw [spanTests, if_pos opens]
        exact beyond.cons w.line
      · rw [spanTests, if_neg opens]
        exact ih.cons w.line

-- No mark of a scan is kept twice, for each one has a line of its own.
theorem nodup_marks_scan (path : Path) (source : String) : (scan path source).marks.Nodup := by
  let items := itemsFrom false 0 (Text.lines source.toList)
  have lines : (items.map (·.line)).Nodup :=
    (lines_itemsFrom false 0 _).nodup List.nodup_range'
  have within := ((List.sublist_append_right _ _).map TestMark.line).trans (lines_unitsOf items)
  rw [Document.marks, units_scan]
  exact .of_map TestMark.line (lines.sublist within)

/-! ## Several entries -/

def copies (d : Document) (n : Nat) : Tree :=
  Tree.discovered (List.replicate n d)

variable (d : Document)

theorem copies_succ (n : Nat) : d.copies (n + 1) = (d.insertInto (d.copies n)).tree := by
  rw [copies, List.replicate_succ', Tree.discovered_concat]
  rfl

theorem copies_one : d.copies 1 = (d.insertInto {}).tree :=
  d.copies_succ 0

theorem sole_copies (n : Nat) : (d.copies n).Sole d.path := by
  induction n with
  | zero => exact Tree.sole_empty d.path
  | succ n ih =>
    rw [copies_succ]
    exact (outline_insertInto ih).1

theorem outline_copies_succ (n : Nat) :
    (d.copies (n + 1)).outline = d.units.foldl UnitMark.join (d.copies n).outline := by
  rw [copies_succ]
  exact (outline_insertInto (d.sole_copies n)).2

theorem outline_copies (n : Nat) :
    (d.copies (n + 1)).outline = UnitMark.repeated (n + 1) (d.copies 1).outline := by
  have once : (d.copies 1).outline = d.units.foldl UnitMark.join [] := d.outline_copies_succ 0
  rw [once]
  induction n with
  | zero => simp [once, UnitMark.repeated]
  | succ n ih => rw [outline_copies_succ, ih, UnitMark.foldl_join_joined]

theorem marks_copies (n : Nat) :
    ((d.copies n).tests.map Test.mark).Perm (List.replicate n d.marks).flatten := by
  rw [← Tree.marks_outline]
  induction n with
  | zero => rfl
  | succ n ih =>
    have ⟨_, _, held⟩ := UnitMark.joins (d.sole_copies n).names_nodup d.units
    rw [outline_copies_succ, List.replicate_succ', List.flatten_append]
    exact held.trans (by simpa [marks] using ih.append_right d.marks)

theorem numbered_copies {d : Document} (hashless : d.Hashless) (n : Nat) :
    (d.copies n).Numbered d.path := by
  induction n with
  | zero => exact Tree.numbered_empty d.path
  | succ n ih =>
    rw [copies_succ]
    exact hashless.insertInto ih

theorem countP_copies (n : Nat) (which : TestMark → Bool) :
    (d.copies n).tests.countP (fun x => which x.mark) = n * d.marks.countP which := by
  have counted := (d.marks_copies n).countP_eq which
  rw [List.countP_map, List.countP_flatten, List.map_replicate, List.sum_replicate_nat] at counted
  exact counted

end Document

namespace Tree

theorem Sole.suites_of_bare {p : Path} {t : Tree} (sole : t.Sole p) (bare : t.tests = []) :
    t.suites = t.outline.map fun unit =>
      { id := SuiteId.of p unit.name, name := unit.name, path := p, line := unit.line,
        tests := [] } := by
  rw [outline, List.map_map]
  refine ((List.map_congr_left fun s member => ?_).trans (List.map_id t.suites)).symm
  have empty : s.tests = [] := by
    simp only [tests, List.flatMap_eq_nil_iff] at bare
    exact bare s member
  obtain ⟨id, name, path, line, tests⟩ := s
  have key := sole.key member
  have home := sole.path _ member
  simp_all [Suite.outline]

end Tree

-- Units without tests are only joined, and nothing tells how often.
theorem Document.copies_of_unmarked (d : Document) (unmarked : d.marks = []) (n : Nat) :
    d.copies (n + 1) = d.copies 1 := by
  have bare (k : Nat) : (d.copies k).tests = [] := by
    have none := d.marks_copies k
    rw [unmarked, List.flatten_replicate_nil, List.perm_nil, List.map_eq_nil_iff] at none
    exact none
  have same : (d.copies (n + 1)).suites = (d.copies 1).suites := by
    rw [(d.sole_copies (n + 1)).suites_of_bare (bare _), (d.sole_copies 1).suites_of_bare (bare _),
      d.outline_copies, UnitMark.repeated, List.map_map]
    rfl
  exact congrArg Tree.mk same

namespace Tree

variable {t : Tree}

structure Repeats (t : Tree) (d : Document) (n : Nat) : Prop where
  suites : t.part d.path = d.copies n
  units : 1 ≤ n → (t.part d.path).outline = UnitMark.repeated n (d.insertInto {}).tree.outline
  marks : ∀ mark ∈ d.marks, t.tests.countP (fun x => x.path = d.path ∧ x.mark = mark) = n
  tests : ∀ x ∈ t.tests, x.path = d.path → x.mark ∈ d.marks
  ordinals : d.Hashless → ∀ name, '#' ∉ name.toList → ∀ k, 1 ≤ k →
    (t.hasTest (TestId.of d.path name k) ↔ k ≤ n * d.declares name)
  once : 1 ≤ n → (t.part d.path = (d.insertInto {}).tree ↔ n = 1 ∨ d.marks = [])

theorem Owned.repeats (owned : t.Owned) {d : Document} (plain : d.path.Plain)
    (distinct : d.marks.Nodup) {n : Nat} (suites : t.part d.path = d.copies n) :
    t.Repeats d n := by
  have counted (which : TestMark → Bool) :
      t.tests.countP (fun x => x.path = d.path ∧ which x.mark) = n * d.marks.countP which := by
    rw [← d.countP_copies, ← suites, owned.tests_part, List.countP_filter]
    simp [Bool.and_comm]
  have once (mark : TestMark) (marked : mark ∈ d.marks) :
      t.tests.countP (fun x => x.path = d.path ∧ x.mark = mark) = n := by
    have here := counted (· = mark)
    rw [show d.marks.countP (· = mark) = 1 from List.count_eq_one_of_mem distinct marked] at here
    simpa using here
  constructor
  case suites => exact suites
  case units =>
    intro entered
    obtain ⟨m, rfl⟩ := Nat.exists_eq_add_of_le' entered
    rw [suites, d.outline_copies, ← d.copies_one]
  case marks => exact once
  case tests =>
    intro x held here
    have inside : x.mark ∈ (d.copies n).tests.map Test.mark := by
      rw [← suites, owned.tests_part]
      exact List.mem_map_of_mem (List.mem_filter.2 ⟨held, by simpa using here⟩)
    obtain ⟨copy, listed, found⟩ := List.mem_flatten.1 ((d.marks_copies n).mem_iff.1 inside)
    exact (List.mem_replicate.1 listed).2 ▸ found
  case ordinals =>
    intro hashless name plain' k first
    rw [← owned.hasTest_part plain, suites, Document.numbered_copies hashless n name plain' k first,
      occurrences, Document.declares, ← d.countP_copies]
    rfl
  case once =>
    intro entered
    obtain ⟨m, rfl⟩ := Nat.exists_eq_add_of_le' entered
    rw [suites, ← Document.copies_one]
    constructor
    · intro same
      cases marked : d.marks with
      | nil => exact .inr rfl
      | cons mark rest =>
        have single : d.marks.countP (· = mark) = 1 :=
          List.count_eq_one_of_mem distinct (by simp [marked])
        have many := d.countP_copies (m + 1) (· = mark)
        have one := d.countP_copies 1 (· = mark)
        rw [same, one, single] at many
        omega
    · rintro (one | unmarked)
      · rw [one]
      · exact d.copies_of_unmarked unmarked m

end Tree

end TestExplorer
