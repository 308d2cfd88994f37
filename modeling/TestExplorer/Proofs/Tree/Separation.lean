import Mathlib.Data.List.Induction
import TestExplorer.Config
import TestExplorer.Proofs.Tree.FreeIdentifier

set_option autoImplicit false

namespace TestExplorer

namespace Tree

def Extends (t t' : Tree) : Prop :=
  ∀ s ∈ t.suites, ∃ s' ∈ t'.suites, s'.id = s.id ∧ s'.path = s.path ∧ s.tests ⊆ s'.tests

namespace Extends

theorem refl (t : Tree) : t.Extends t :=
  fun s member => ⟨s, member, rfl, rfl, List.Subset.refl _⟩

theorem trans {t t' t'' : Tree} (first : t.Extends t') (second : t'.Extends t'') :
    t.Extends t'' := by
  intro s member
  obtain ⟨s', member', id', path', tests'⟩ := first s member
  obtain ⟨s'', member'', id'', path'', tests''⟩ := second s' member'
  exact ⟨s'', member'', id''.trans id', path''.trans path', List.Subset.trans tests' tests''⟩

theorem addSuite {t t' : Tree} {name : String} {path : Path} {line : Nat} {s : Suite}
    (added : t.addSuite name path line = .ok (t', s)) : t.Extends t' := by
  obtain ⟨-, -, rfl⟩ := addSuite_ok added
  exact fun s member => ⟨s, List.mem_append_left _ member, rfl, rfl, List.Subset.refl _⟩

theorem addTestWithId {t t' : Tree} {suite : SuiteId} {id : TestId} {name : String} {path : Path}
    {line : Nat} {x : Test} (added : t.addTestWithId suite id name path line = .ok (t', x)) :
    t.Extends t' := by
  obtain ⟨-, -, before, holder, after, parts, -, rfl⟩ := addTestWithId_ok added
  intro s member
  rw [parts, List.mem_append, List.mem_cons] at member
  rcases member with old | rfl | old
  · exact ⟨s, by simp [old], rfl, rfl, List.Subset.refl _⟩
  · exact ⟨{ s with tests := s.tests ++ [x] }, by simp, rfl, rfl, List.subset_append_left _ _⟩
  · exact ⟨s, by simp [old], rfl, rfl, List.Subset.refl _⟩

theorem insertInto (t : Tree) (d : Document) : t.Extends (d.insertInto t).tree :=
  d.insertInto_induction t (refl t) (fun _ _ _ _ _ grown added => grown.trans (addSuite added))
    fun _ _ _ _ _ _ _ grown added => grown.trans (addTestWithId added)

end Extends

structure Stems (ds : List Document) (t : Tree) : Prop where
  suites : ∀ s ∈ t.suites, ∃ d ∈ ds, s.path = d.path ∧
    ∃ u ∈ d.units, s.id = SuiteId.of d.path u.name
  tests : ∀ s ∈ t.suites, ∀ x ∈ s.tests, ∃ d ∈ ds, x.path = d.path ∧
    ∃ u ∈ d.units, u.tests ≠ [] ∧ s.id = SuiteId.of d.path u.name

namespace Stems

variable {ds : List Document} {t : Tree}

theorem insertInto (stems : Stems ds t) {d : Document} (known : d ∈ ds) :
    Stems ds (d.insertInto t).tree := by
  refine d.insertInto_induction t stems ?suite ?test
  case suite =>
    intro t t' s unit marked stems added
    constructor <;> intro s' member <;> rcases mem_addSuite added member with old | rfl
    · exact stems.suites s' old
    · exact ⟨d, known, rfl, unit, marked, rfl⟩
    · exact stems.tests s' old
    · simp
  case test =>
    intro t t' x unit marked mark named stems added
    obtain ⟨-, new, -⟩ := addTestWithId_ok added
    constructor <;> intro s' member <;>
      obtain ⟨s, old, key, -, home, origin⟩ := mem_addTestWithId added member <;> rw [key]
    · rw [home]
      exact stems.suites s old
    · intro y held
      rcases origin y held with old' | ⟨rfl, holds⟩
      · exact stems.tests s old y old'
      · rw [new]
        exact ⟨d, known, rfl, unit, marked, List.ne_nil_of_mem named, holds⟩

end Stems

/-- The unit has its suite, and where it has tests, tests of the document stand in it. -/
def Holds (t : Tree) (d : Document) (u : UnitMark) : Prop :=
  ∃ s ∈ t.suites, s.id = SuiteId.of d.path u.name ∧
    (u.tests ≠ [] → ∃ x ∈ s.tests, x.path = d.path)

theorem Holds.mono {t t' : Tree} {d : Document} {u : UnitMark} (holds : t.Holds d u)
    (grown : t.Extends t') : t'.Holds d u := by
  obtain ⟨s, member, id, tests⟩ := holds
  obtain ⟨s', member', id', -, kept⟩ := grown s member
  refine ⟨s', member', id'.trans id, fun some => ?_⟩
  obtain ⟨x, held, path⟩ := tests some
  exact ⟨x, kept held, path⟩

theorem addTestWithId_enters {t : Tree} {suite : SuiteId} {id : TestId} (free : ¬ t.hasTest id)
    (there : ∃ s ∈ t.suites, s.id = suite) (name : String) (path : Path) (line : Nat) :
    ∃ t' x, t.addTestWithId suite id name path line = .ok (t', x) := by
  obtain ⟨s, member, same⟩ := there
  cases appended : appendTest suite { id, name, path, line, suite } t.suites with
  | none => exact absurd same ((appendTest_eq_none_iff _ _ _).1 appended s member)
  | some suites => simp [addTestWithId_eq, free, appended]

end Tree

namespace Document

theorem insertTest_extends (path : Path) (suite : SuiteId) (i : Insertion) (mark : TestMark) :
    i.tree.Extends (insertTest path suite i mark).tree := by
  rw [tree_insertTest]
  split
  next added => exact .addTestWithId added
  next => exact .refl _

theorem insertTests_extends (path : Path) (suite : SuiteId) (i : Insertion)
    (marks : List TestMark) :
    i.tree.Extends (marks.foldl (insertTest path suite) i).tree := by
  induction marks generalizing i with
  | nil => exact .refl _
  | cons mark rest ih => exact (insertTest_extends path suite i mark).trans (ih _)

theorem insertTest_eq {suite : SuiteId} {i : Insertion} (path : Path)
    (there : ∃ s ∈ i.tree.suites, s.id = suite) (mark : TestMark) :
    let id := i.tree.freeTestId path mark.name
    ∃ t' x, i.tree.addTestWithId suite id mark.name path mark.line = .ok (t', x) ∧
      insertTest path suite i mark =
        { tree := t', found := { i.found with tests := i.found.tests + 1 }
          notices := i.notices ++
            if id = TestId.of path mark.name then [] else [.duplicateTest mark.line mark.name id] } := by
  intro id
  have free : ¬ i.tree.hasTest id := by
    obtain ⟨k, -, -, found, free, -⟩ := i.tree.freeTestId_least path mark.name
    rwa [show id = TestId.of path mark.name k from found]
  obtain ⟨t', x, added⟩ := Tree.addTestWithId_enters free there mark.name path mark.line
  refine ⟨t', x, added, ?_⟩
  by_cases first : i.tree.freeTestId path mark.name = TestId.of path mark.name
  · simp only [id, first] at added
    simp [insertTest, id, first, added]
  · simp only [id] at added
    simp [insertTest, id, first, added, Insertion.note]

theorem insertTest_enters {path : Path} {suite : SuiteId} {i : Insertion}
    (there : ∃ s ∈ i.tree.suites, s.id = suite) (mark : TestMark) :
    ∃ s ∈ (insertTest path suite i mark).tree.suites, s.id = suite ∧
      ∃ x ∈ s.tests, x.path = path := by
  obtain ⟨t', x, added, done⟩ := insertTest_eq path there mark
  obtain ⟨-, new, before, s, after, -, holds, rest⟩ := Tree.addTestWithId_ok added
  rw [done]
  exact ⟨{ s with tests := s.tests ++ [x] }, by simp [rest], holds, x, by simp, by rw [new]⟩

theorem insertTests_holds {d : Document} {unit : UnitMark} {i : Insertion}
    (there : ∃ s ∈ i.tree.suites, s.id = SuiteId.of d.path unit.name) :
    (unit.tests.foldl (insertTest d.path (SuiteId.of d.path unit.name)) i).tree.Holds d unit := by
  cases marks : unit.tests with
  | nil =>
    obtain ⟨s, member, id⟩ := there
    exact ⟨s, member, id, fun some => absurd marks some⟩
  | cons mark rest =>
    obtain ⟨s, member, id, entered⟩ := insertTest_enters there mark
    have first : Tree.Holds _ d unit := ⟨s, member, id, fun _ => entered⟩
    exact first.mono (insertTests_extends d.path _ _ rest)

theorem insertUnit_holds (d : Document) (i : Insertion) (unit : UnitMark) :
    i.tree.Extends (insertUnit d.path i unit).tree ∧
      (insertUnit d.path i unit).tree.Holds d unit := by
  unfold insertUnit
  cases result : i.tree.addSuite unit.name d.path unit.line with
  | ok parts =>
    obtain ⟨tree, s⟩ := parts
    obtain ⟨-, new, rest⟩ := Tree.addSuite_ok result
    let opened : Insertion :=
      { i with tree, found := { i.found with suites := i.found.suites + 1 } }
    have named : s.id = SuiteId.of d.path unit.name := by rw [new]
    have there : ∃ s ∈ opened.tree.suites, s.id = SuiteId.of d.path unit.name :=
      ⟨s, by simp [opened, rest], named⟩
    simp only [named]
    exact ⟨(Tree.Extends.addSuite result).trans (insertTests_extends _ _ opened _),
      insertTests_holds there⟩
  | error error =>
    obtain ⟨rfl, there⟩ := Tree.addSuite_error result
    exact ⟨insertTests_extends _ _ (i.note _) _, insertTests_holds there⟩

theorem insertUnits_holds (d : Document) (units : List UnitMark) (i : Insertion) :
    i.tree.Extends (units.foldl (insertUnit d.path) i).tree ∧
      ∀ unit ∈ units, (units.foldl (insertUnit d.path) i).tree.Holds d unit := by
  induction units generalizing i with
  | nil => exact ⟨.refl _, by simp⟩
  | cons unit rest ih =>
    have ⟨grown, holds⟩ := insertUnit_holds d i unit
    have ⟨grown', others⟩ := ih (insertUnit d.path i unit)
    refine ⟨grown.trans grown', ?_⟩
    intro other member
    rcases List.mem_cons.1 member with rfl | later
    · exact holds.mono grown'
    · exact others other later

theorem insertInto_holds (d : Document) (t : Tree) :
    ∀ unit ∈ d.units, (d.insertInto t).tree.Holds d unit :=
  (insertUnits_holds d d.units _).2

end Document

namespace Tree

def discovered (ds : List Document) : Tree :=
  ds.foldl (fun t d => (d.insertInto t).tree) {}

theorem discovered_append (ds es : List Document) :
    discovered (ds ++ es) = es.foldl (fun t d => (d.insertInto t).tree) (discovered ds) := by
  simp [discovered]

theorem extends_discovered (es : List Document) (t : Tree) :
    t.Extends (es.foldl (fun t d => (d.insertInto t).tree) t) := by
  induction es generalizing t with
  | nil => exact .refl t
  | cons e rest ih => exact (Extends.insertInto t e).trans (ih _)

theorem reachable_discovered (ds : List Document) : (discovered ds).Reachable := by
  refine List.foldlRecOn (motive := Reachable) ds _ .empty ?_
  exact fun t reachable d _ => .insertInto d reachable

theorem stems_discovered (ds : List Document) : Stems ds (discovered ds) := by
  refine List.foldlRecOn (motive := Stems ds) ds _ ⟨by simp, by simp⟩ ?_
  exact fun t stems d known => stems.insertInto known

theorem holds_discovered {ds : List Document} {d : Document} (known : d ∈ ds) :
    ∀ unit ∈ d.units, (discovered ds).Holds d unit := by
  obtain ⟨before, after, rfl⟩ := List.append_of_mem known
  intro unit marked
  rw [discovered_append]
  exact (d.insertInto_holds (discovered before) unit marked).mono (extends_discovered after _)

def AtHome (t : Tree) : Prop :=
  ∀ s ∈ t.suites, ∀ x ∈ s.tests, x.path = s.path

/-- No unit with tests goes by the key of a unit of an earlier document. -/
def TestsApart (ds : List Document) : Prop :=
  ds.Pairwise fun d e => ∀ u ∈ d.units, ∀ v ∈ e.units, v.tests ≠ [] →
    SuiteId.of d.path u.name ≠ SuiteId.of e.path v.name

def KeysApart (ds : List Document) : Prop :=
  ∀ d ∈ ds, ∀ e ∈ ds, ¬ d.path.Same e.path → ∀ u ∈ d.units, ∀ v ∈ e.units,
    SuiteId.of d.path u.name ≠ SuiteId.of e.path v.name

theorem WellFormed.suite_unique {t : Tree} (formed : t.WellFormed) {s s' : Suite}
    (member : s ∈ t.suites) (member' : s' ∈ t.suites) (same : s.id = s'.id) : s = s' :=
  List.inj_on_of_nodup_map formed.suiteIds member member' same

variable {ds : List Document} {e : Document}

-- Tests enter a suite of another document only through a key that is there already.
theorem AtHome.insertInto (home : (discovered ds).AtHome)
    (apart : ∀ d ∈ ds, ∀ u ∈ d.units, ∀ v ∈ e.units, v.tests ≠ [] →
      SuiteId.of d.path u.name ≠ SuiteId.of e.path v.name) :
    (e.insertInto (discovered ds)).tree.AtHome := by
  let Known (t : Tree) : Prop := t.AtHome ∧ ∀ s ∈ t.suites, s.path = e.path ∨
    ∃ d ∈ ds, ∃ u ∈ d.units, s.id = SuiteId.of d.path u.name
  have start : Known (discovered ds) := by
    refine ⟨home, fun s member => .inr ?_⟩
    obtain ⟨d, known, -, u, marked, id⟩ := (stems_discovered ds).suites s member
    exact ⟨d, known, u, marked, id⟩
  suffices all : Known (e.insertInto (discovered ds)).tree from all.1
  refine e.insertInto_induction (discovered ds) start ?suite ?test
  case suite =>
    rintro t t' s v - ⟨home, origin⟩ added
    constructor <;> intro s' member <;> rcases mem_addSuite added member with old | rfl
    · exact home s' old
    · simp
    · exact origin s' old
    · exact .inl rfl
  case test =>
    rintro t t' x v marked mark named ⟨home, origin⟩ added
    obtain ⟨-, new, -⟩ := addTestWithId_ok added
    constructor <;> intro s' member <;>
      obtain ⟨s, old, key, -, path, tests⟩ := mem_addTestWithId added member <;> rw [path]
    · intro y held
      rcases tests y held with old' | ⟨rfl, holds⟩
      · exact home s old y old'
      · rcases origin s old with own | ⟨d, known, u, marked', id⟩
        · rw [new, own]
        · exact absurd (id.symm.trans holds)
            (apart d known u marked' v marked (List.ne_nil_of_mem named))
    · rw [key]
      exact origin s old

theorem discovered_concat (ds : List Document) (e : Document) :
    discovered (ds ++ [e]) = (e.insertInto (discovered ds)).tree := by
  rw [discovered_append]
  rfl

theorem AtHome.of_extends {t t' : Tree} (home : t'.AtHome) (grown : t.Extends t') : t.AtHome := by
  intro s member x held
  obtain ⟨s', member', -, path, kept⟩ := grown s member
  rw [home s' member' x (kept held), path]

theorem atHome_iff (different : ds.Pairwise fun d e => ¬ d.path.Same e.path) :
    (discovered ds).AtHome ↔ TestsApart ds := by
  induction ds using List.reverseRecOn with
  | nil => simp [AtHome, TestsApart, discovered]
  | append_singleton ds e ih =>
    obtain ⟨earlier, -, last⟩ := List.pairwise_append.1 different
    have before := ih earlier
    have split : TestsApart (ds ++ [e]) ↔ TestsApart ds ∧ ∀ d ∈ ds, ∀ u ∈ d.units, ∀ v ∈ e.units,
        v.tests ≠ [] → SuiteId.of d.path u.name ≠ SuiteId.of e.path v.name := by
      simp [TestsApart, List.pairwise_append]
    rw [split, discovered_concat, ← before]
    constructor
    case mpr => exact fun ⟨home, apart⟩ => home.insertInto apart
    case mp =>
      intro home
      have grown : (discovered ds).Extends (e.insertInto (discovered ds)).tree := .insertInto _ e
      refine ⟨home.of_extends grown, ?_⟩
      intro d known u marked v marked' some same
      -- The earlier suite of this key takes the test of `v` and keeps the path that it has.
      obtain ⟨s, member, id, -⟩ := holds_discovered known u marked
      obtain ⟨owner, known', path, -⟩ := (stems_discovered ds).suites s member
      obtain ⟨s', member', id', path', -⟩ := grown s member
      obtain ⟨s'', member'', id'', tests⟩ := e.insertInto_holds (discovered ds) v marked'
      obtain ⟨x, held, own⟩ := tests some
      have formed := ((reachable_discovered ds).insertInto e).wellFormed
      obtain rfl := formed.suite_unique member' member'' (by rw [id', id, id'', same])
      have equal : owner.path = e.path := by
        rw [← path, ← path', ← home s' member' x held, own]
      exact last owner known' e (List.mem_singleton_self e) (equal ▸ rfl)

theorem KeysApart.testsApart (apart : KeysApart ds)
    (different : ds.Pairwise fun d e => ¬ d.path.Same e.path) : TestsApart ds :=
  different.imp_of_mem fun known known' other u marked v marked' _ =>
    apart _ known _ known' other u marked v marked'

theorem keysApart_of_plain (plain : ∀ d ∈ ds, d.path.Plain) : KeysApart ds := by
  intro d known e known' other u _ v _ same
  obtain ⟨path, -⟩ := SuiteId.of_inj (plain d known) (plain e known') same
  exact other (path ▸ rfl)

/-- Removing the document takes its units and its tests from the tree and leaves all others. -/
structure Evicts (ds : List Document) (t : Tree) (d : Document) : Prop where
  units : ∀ s ∈ (t.removeDocument d.path).suites, ∀ u ∈ d.units, s.id ≠ SuiteId.of d.path u.name
  tests : ∀ x ∈ (t.removeDocument d.path).tests, ¬ x.path.Same d.path
  otherUnits : ∀ e ∈ ds, ¬ e.path.Same d.path → ∀ v ∈ e.units,
    ∃ s ∈ (t.removeDocument d.path).suites, s.id = SuiteId.of e.path v.name
  otherTests : ∀ x ∈ t.tests, ¬ x.path.Same d.path → x ∈ (t.removeDocument d.path).tests

-- With all keys apart, a suite belongs to the one document that its path names.
theorem KeysApart.evicts (apart : KeysApart ds)
    (different : ds.Pairwise fun d e => ¬ d.path.Same e.path) {d : Document} (known : d ∈ ds) :
    Evicts ds (discovered ds) d := by
  have home := (atHome_iff different).2 (apart.testsApart different)
  have stems := stems_discovered ds
  constructor
  case units =>
    intro s member u marked same
    obtain ⟨there, elsewhere⟩ := mem_removeDocument.1 member
    obtain ⟨owner, known', path, v, marked', id⟩ := stems.suites s there
    rw [path] at elsewhere
    exact apart owner known' d known elsewhere v marked' u marked (id.symm.trans same)
  case tests =>
    intro x member
    obtain ⟨s, kept, held⟩ := (mem_tests _ x).1 member
    obtain ⟨there, elsewhere⟩ := mem_removeDocument.1 kept
    rwa [home s there x held]
  case otherUnits =>
    intro e known' other v marked
    obtain ⟨s, there, id, -⟩ := holds_discovered known' v marked
    obtain ⟨owner, known'', path, u, marked', id'⟩ := stems.suites s there
    refine ⟨s, mem_removeDocument.2 ⟨there, fun same => ?_⟩, id⟩
    rw [path] at same
    have foreign : ¬ owner.path.Same e.path := fun own => other (own.symm.trans same)
    exact apart owner known'' e known' foreign u marked' v marked (id'.symm.trans id)
  case otherTests =>
    intro x member other
    obtain ⟨s, there, held⟩ := (mem_tests _ x).1 member
    rw [home s there x held] at other
    exact (mem_tests _ x).2 ⟨s, mem_removeDocument.2 ⟨there, other⟩, held⟩

theorem evicts_iff (different : ds.Pairwise fun d e => ¬ d.path.Same e.path) :
    (∀ d ∈ ds, Evicts ds (discovered ds) d) ↔ KeysApart ds := by
  refine ⟨?_, fun apart d known => apart.evicts different known⟩
  intro evicts d known e known' other u marked v marked' same
  obtain ⟨s, there, id, -⟩ := holds_discovered known u marked
  obtain ⟨owner, known'', path, -⟩ := (stems_discovered ds).suites s there
  have formed := (reachable_discovered ds).wellFormed
  -- One of the two is not the owner of the suite, and loses its unit when the owner is removed.
  have lost (f : Document) (member : f ∈ ds) (w : UnitMark) (inside : w ∈ f.units)
      (key : s.id = SuiteId.of f.path w.name) : f.path.Same owner.path := by
    by_contra foreign
    obtain ⟨s', kept, id'⟩ := (evicts owner known'').otherUnits f member foreign w inside
    obtain ⟨there', elsewhere⟩ := mem_removeDocument.1 kept
    obtain rfl := formed.suite_unique there there' (key.trans id'.symm)
    exact elsewhere (path ▸ rfl)
  have first := lost d known u marked id
  have second := lost e known' v marked' (id.trans same)
  exact other (first.trans second.symm)

/-- When keys keep documents apart. Two keys are equal when their parts are, or when the longer path
makes up for the shorter name. Documents with different paths keep their tests in their own suites
exactly when no unit with tests goes by an earlier document's key, and each of them can be removed
on its own exactly when they have no key in common. Plain paths are enough for both. -/
theorem keys_separate_iff (p q : Path) (m n : String) (ds : List Document)
    (different : ds.Pairwise fun d e => ¬ d.path.Same e.path) :
    (SuiteId.of p m = SuiteId.of q n ↔
      p.display = q.display ∧ m = n ∨ p.Absorbs m q n ∨ q.Absorbs n p m) ∧
    (TestId.of p m = TestId.of q n ↔
      p.display = q.display ∧ m = n ∨ p.Absorbs m q n ∨ q.Absorbs n p m) ∧
    ((∀ s ∈ (discovered ds).suites, ∀ x ∈ s.tests, x.path = s.path) ↔ TestsApart ds) ∧
    ((∀ d ∈ ds, Evicts ds (discovered ds) d) ↔ KeysApart ds) ∧
    ((∀ d ∈ ds, d.path.Plain) → TestsApart ds ∧ KeysApart ds) := by
  refine ⟨SuiteId.of_eq_iff p q m n, TestId.of_eq_iff p q m n, atHome_iff different,
    evicts_iff different, fun plain => ?_⟩
  have apart := keysApart_of_plain plain
  exact ⟨apart.testsApart different, apart⟩

theorem keys_separate_iff_two_files :
    let p := Path.ofString "/ws/a.pl"
    let q := Path.ofString "/ws/b.pl"
    let ds := [Document.scan p ":- begin_tests(x).\ntest(s).\n",
      Document.scan q ":- begin_tests(x).\ntest(s).\n"]
    (ds.Pairwise fun d e => ¬ d.path.Same e.path) ∧ SuiteId.of p "x" ≠ SuiteId.of q "x" ∧
      (∀ s ∈ (discovered ds).suites, ∀ x ∈ s.tests, x.path = s.path) ∧
      ∀ d ∈ ds, Evicts ds (discovered ds) d := by
  intro p q ds
  have different : ds.Pairwise fun d e => ¬ d.path.Same e.path := by decide
  have plain : ∀ d ∈ ds, d.path.Plain := by decide
  obtain ⟨-, -, home, evicts, apart⟩ := keys_separate_iff p q "x" "x" ds different
  exact ⟨different, by decide, home.2 (apart plain).1, evicts.2 (apart plain).2⟩

/-- A path with a colon lets the unit of one document join a suite of another. -/
theorem keys_meet_at_colon :
    let p := Path.ofString "/ws/a.pl"
    let q := Path.ofString "/ws/a.pl:b.pl"
    let ds := [Document.scan p ":- begin_tests(b.pl:x).\ntest(s).\n:- end_tests(b.pl:x).\n",
      Document.scan q ":- begin_tests(x).\ntest(t).\n:- end_tests(x).\n"]
    ¬ p.Same q ∧ SuiteId.of p "b.pl:x" = SuiteId.of q "x" ∧
      TestId.of p "b.pl:x" = TestId.of q "x" ∧
      (∀ d ∈ ds, ({} : DiscoverySettings).recognizes d.path) ∧
      ¬ (∀ s ∈ (discovered ds).suites, ∀ x ∈ s.tests, x.path = s.path) ∧
      ¬ ∀ d ∈ ds, Evicts ds (discovered ds) d := by
  intro p q ds
  have different : ds.Pairwise fun d e => ¬ d.path.Same e.path := by decide
  refine ⟨by decide, by decide, by decide, by decide, ?_, ?_⟩
  · rw [show (∀ s ∈ (discovered ds).suites, ∀ x ∈ s.tests, x.path = s.path) ↔ _ from
      atHome_iff different]
    unfold TestsApart
    decide
  · rw [evicts_iff different]
    unfold KeysApart
    decide

end Tree

end TestExplorer
