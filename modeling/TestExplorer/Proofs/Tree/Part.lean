import TestExplorer.Proofs.Tree.Replacement
import TestExplorer.Proofs.Tree.Separation

set_option autoImplicit false

namespace TestExplorer

namespace Tree

def part (t : Tree) (p : Path) : Tree :=
  ⟨t.suites.filter (·.path = p)⟩

theorem mem_part {t : Tree} {p : Path} {s : Suite} :
    s ∈ (t.part p).suites ↔ s ∈ t.suites ∧ s.path = p := by
  simp [part]

theorem part_of_none {t : Tree} {p : Path} (none : ∀ s ∈ t.suites, s.path ≠ p) :
    t.part p = {} := by
  rw [part, List.filter_eq_nil_iff.2 (by simpa using none)]

theorem part_removeDocument {t : Tree} {p q : Path} (other : ¬ p.Same q) :
    (t.removeDocument q).part p = t.part p := by
  simp only [part, removeDocument, List.filter_filter, Tree.mk.injEq]
  refine List.filter_congr fun s _ => ?_
  by_cases here : s.path = p <;> simp [here, other]

namespace Owned

variable {t : Tree} (owned : t.Owned) {p : Path}

include owned

theorem tests_part (p : Path) : (t.part p).tests = t.tests.filter (·.path = p) := by
  obtain ⟨suites⟩ := t
  have home := fun s member x held => (owned.tests s member x held).1
  simp only [Tree.tests, part] at home ⊢
  clear owned
  induction suites with
  | nil => rfl
  | cons s rest ih =>
    have later := ih fun s member => home s (List.mem_cons_of_mem _ member)
    have first : s.tests.filter (·.path = p) = if s.path = p then s.tests else [] := by
      split
      next here =>
        exact List.filter_eq_self.2 fun x held => by simp [home s List.mem_cons_self x held, here]
      next away =>
        exact List.filter_eq_nil_iff.2 fun x held => by simp [home s List.mem_cons_self x held, away]
    rw [List.flatMap_cons, List.filter_append, ← later, first]
    by_cases here : s.path = p <;> simp [here]

variable (plain : p.Plain)

include plain

theorem path_of_key {s : Suite} (member : s ∈ t.suites) {name : String}
    (key : s.id = SuiteId.of p name) : s.path = p := by
  rw [owned.keys s member] at key
  exact (SuiteId.of_inj (owned.plain s member) plain key).1

theorem suite?_part (name : String) :
    ((t.part p).suite? (SuiteId.of p name)).isSome = (t.suite? (SuiteId.of p name)).isSome := by
  rw [Bool.eq_iff_iff, suite?_isSome_iff, suite?_isSome_iff]
  constructor
  · rintro ⟨s, member, key⟩
    exact ⟨s, (mem_part.1 member).1, key⟩
  · rintro ⟨s, member, key⟩
    exact ⟨s, mem_part.2 ⟨member, owned.path_of_key plain member key⟩, key⟩

theorem hasTest_part (name : String) (k : Nat) :
    (t.part p).hasTest (TestId.of p name k) = t.hasTest (TestId.of p name k) := by
  rw [Bool.eq_iff_iff, hasTest_iff, hasTest_iff]
  constructor
  · rintro ⟨x, held, key⟩
    obtain ⟨s, member, inside⟩ := (mem_tests _ x).1 held
    exact ⟨x, (mem_tests t x).2 ⟨s, (mem_part.1 member).1, inside⟩, key⟩
  · rintro ⟨x, held, key⟩
    obtain ⟨s, member, inside⟩ := (mem_tests t x).1 held
    obtain ⟨-, j, id⟩ := owned.tests s member x inside
    have here : s.path = p := TestId.path_inj (owned.plain s member) plain (id.symm.trans key)
    exact ⟨x, (mem_tests _ x).2 ⟨s, mem_part.2 ⟨member, here⟩, inside⟩, key⟩

theorem freeTestId_part (name : String) :
    (t.part p).freeTestId p name = t.freeTestId p name :=
  freeTestId_congr (owned.hasTest_part plain name)

theorem addSuite_part (name : String) (line : Nat) :
    (t.part p).addSuite name p line =
      (t.addSuite name p line).map fun (t, s) => (t.part p, s) := by
  simp only [Tree.addSuite_eq, owned.suite?_part plain]
  split <;> simp [Except.map, part]

end Owned

theorem appendTest_filter {owner : SuiteId} (x : Test) {p : Path} {suites : List Suite}
    (own : ∀ s ∈ suites, s.id = owner → s.path = p) :
    appendTest owner x (suites.filter (·.path = p)) =
      (appendTest owner x suites).map (List.filter (·.path = p)) := by
  induction suites with
  | nil => rfl
  | cons s rest ih =>
    have later := ih fun s member => own s (List.mem_cons_of_mem _ member)
    by_cases here : s.path = p
    · by_cases key : s.id = owner <;> simp [appendTest, here, key, later, Function.comp_def]
    · have other : s.id ≠ owner := fun key => here (own s List.mem_cons_self key)
      simp [appendTest, here, other, later, Function.comp_def]

theorem Owned.addTestWithId_part {t : Tree} (owned : t.Owned) {p : Path} (plain : p.Plain)
    (unit name : String) (k line : Nat) :
    (t.part p).addTestWithId (SuiteId.of p unit) (TestId.of p name k) name p line =
      (t.addTestWithId (SuiteId.of p unit) (TestId.of p name k) name p line).map
        fun (t, x) => (t.part p, x) := by
  have own : ∀ s ∈ t.suites, s.id = SuiteId.of p unit → s.path = p :=
    fun s member => owned.path_of_key plain member
  simp only [Tree.addTestWithId_eq, owned.hasTest_part plain]
  split
  next => rfl
  next =>
    simp only [part, appendTest_filter _ own]
    cases appendTest (SuiteId.of p unit) _ t.suites <;> rfl

/-! ## Another document leaves the part as it is -/

section

variable {t t' : Tree} {p q : Path} {line : Nat}

theorem part_addSuite_of_ne (other : q ≠ p) {name : String} {s : Suite}
    (added : t.addSuite name q line = .ok (t', s)) : t'.part p = t.part p := by
  obtain ⟨-, rfl, rfl⟩ := addSuite_ok added
  simp [part, other]

theorem part_addTestWithId_of_ne (owned : t.Owned) (plain : q.Plain) (other : q ≠ p)
    {unit name : String} {id : TestId} {x : Test}
    (added : t.addTestWithId (SuiteId.of q unit) id name q line = .ok (t', x)) :
    t'.part p = t.part p := by
  obtain ⟨-, -, before, s, after, parts, key, rfl⟩ := addTestWithId_ok added
  have home : s.path = q := owned.path_of_key plain (by simp [parts]) key
  simp [part, parts, home, other]

end

end Tree

namespace Document

variable {t : Tree} {p : Path}

theorem part_insertInto_of_ne (owned : t.Owned) {d : Document} (plain : d.path.Plain)
    (other : d.path ≠ p) : (d.insertInto t).tree.part p = t.part p := by
  refine (d.insertInto_induction (P := fun t' => t'.Owned ∧ t'.part p = t.part p) t ⟨owned, rfl⟩
    ?suite ?test).2
  case suite =>
    rintro t₁ t₂ s unit - ⟨owned, same⟩ added
    exact ⟨owned.addSuite plain added, (Tree.part_addSuite_of_ne other added).trans same⟩
  case test =>
    rintro t₁ t₂ x unit - mark - ⟨owned, same⟩ added
    have unchanged := Tree.part_addTestWithId_of_ne owned plain other added
    obtain ⟨k, -, -, found, -⟩ := t₁.freeTestId_least d.path mark.name
    rw [found] at added
    exact ⟨owned.addTestWithId plain added, unchanged.trans same⟩

/-! ## A document finds nothing but its own part -/

/-- The second insertion goes on in the part that the first one has of the document. -/
structure Mirrors (p : Path) (i j : Insertion) : Prop where
  owned : i.tree.Owned
  tree : j.tree = i.tree.part p

namespace Mirrors

variable {i j : Insertion} (mirrors : Mirrors p i j) (plain : p.Plain)

include mirrors

theorem note (n m : Notice) : Mirrors p (i.note n) (j.note m) :=
  ⟨mirrors.owned, mirrors.tree⟩

include plain

theorem insertTest (unit : String) (mark : TestMark) :
    Mirrors p (insertTest p (SuiteId.of p unit) i mark)
      (insertTest p (SuiteId.of p unit) j mark) := by
  obtain ⟨k, -, -, found, -⟩ := i.tree.freeTestId_least p mark.name
  have added := mirrors.owned.addTestWithId_part plain unit mark.name k mark.line
  constructor
  case owned =>
    rw [tree_insertTest, found]
    split
    next accepted => exact mirrors.owned.addTestWithId plain accepted
    next => exact mirrors.owned
  case tree =>
    rw [tree_insertTest, tree_insertTest, mirrors.tree, mirrors.owned.freeTestId_part plain, found,
      added]
    cases i.tree.addTestWithId (SuiteId.of p unit) (TestId.of p mark.name k) mark.name p
      mark.line <;> rfl

theorem insertTests (unit : String) (marks : List TestMark) :
    Mirrors p (marks.foldl (Document.insertTest p (SuiteId.of p unit)) i)
      (marks.foldl (Document.insertTest p (SuiteId.of p unit)) j) := by
  induction marks generalizing i j with
  | nil => exact mirrors
  | cons mark rest ih => exact ih (mirrors.insertTest plain unit mark)

theorem insertUnit (unit : UnitMark) :
    Mirrors p (insertUnit p i unit) (insertUnit p j unit) := by
  have added := mirrors.owned.addSuite_part plain unit.name unit.line
  simp only [Document.insertUnit, mirrors.tree, added]
  cases result : i.tree.addSuite unit.name p unit.line with
  | ok parts =>
    obtain ⟨tree, s⟩ := parts
    have named : s.id = SuiteId.of p unit.name := by rw [(Tree.addSuite_ok result).2.1]
    simp only [Except.map, named]
    exact Mirrors.insertTests ⟨mirrors.owned.addSuite plain result, rfl⟩ plain unit.name _
  | error error =>
    obtain ⟨rfl, -⟩ := Tree.addSuite_error result
    exact (mirrors.note _ _).insertTests plain unit.name _

end Mirrors

theorem part_insertInto (owned : t.Owned) {d : Document} (plain : d.path.Plain) :
    (d.insertInto t).tree.part d.path = (d.insertInto (t.part d.path)).tree := by
  have mirrors (units : List UnitMark) {i j : Insertion} (start : Mirrors d.path i j) :
      Mirrors d.path (units.foldl (insertUnit d.path) i) (units.foldl (insertUnit d.path) j) := by
    induction units generalizing i j with
    | nil => exact start
    | cons unit rest ih => exact ih (start.insertUnit plain unit)
  exact (mirrors d.units ⟨owned, rfl⟩).tree.symm

end Document

namespace Tree

theorem owned_discovered {ds : List Document} (plain : ∀ d ∈ ds, d.path.Plain) :
    (discovered ds).Owned :=
  List.foldlRecOn (motive := Owned) ds _ owned_empty fun _ owned d known =>
    owned.insertInto (plain d known)

theorem part_discovered {ds : List Document} (plain : ∀ d ∈ ds, d.path.Plain) (p : Path) :
    (discovered ds).part p = discovered (ds.filter (·.path = p)) := by
  induction ds using List.reverseRecOn with
  | nil => rfl
  | append_singleton ds e ih =>
    have before : ∀ d ∈ ds, d.path.Plain := fun d known => plain d (List.mem_append_left _ known)
    have last : e.path.Plain := plain e (by simp)
    have owned := owned_discovered before
    rw [discovered_concat, List.filter_append]
    by_cases here : e.path = p
    · subst here
      rw [Document.part_insertInto owned last, ih before]
      simp [discovered]
    · rw [Document.part_insertInto_of_ne owned last here, ih before]
      simp [here]

end Tree

end TestExplorer
