import TestExplorer.Proofs.Tree.Insertion

set_option autoImplicit false

namespace TestExplorer

namespace Tree

-- Keys tell documents apart here, because every path that takes part in one is plain.
structure Owned (t : Tree) : Prop where
  plain : ∀ s ∈ t.suites, s.path.Plain
  keys : ∀ s ∈ t.suites, s.id = SuiteId.of s.path s.name
  tests : ∀ s ∈ t.suites, ∀ x ∈ s.tests,
    x.path = s.path ∧ ∃ k, x.id = TestId.of s.path x.name k

theorem owned_empty : Owned {} := by
  constructor <;> simp

theorem Owned.sublist {t t' : Tree} (owned : t.Owned) (kept : t'.suites ⊆ t.suites) : t'.Owned where
  plain s member := owned.plain s (kept member)
  keys s member := owned.keys s (kept member)
  tests s member := owned.tests s (kept member)

theorem Owned.addSuite {t t' : Tree} (owned : t.Owned) {name : String} {path : Path} {line : Nat}
    {s : Suite} (plain : path.Plain) (added : t.addSuite name path line = .ok (t', s)) :
    t'.Owned := by
  constructor <;> intro s' member <;> rcases mem_addSuite added member with old | rfl
  · exact owned.plain s' old
  · exact plain
  · exact owned.keys s' old
  · rfl
  · exact owned.tests s' old
  · simp

theorem Owned.addTestWithId {t t' : Tree} (owned : t.Owned) {unit name : String} {path : Path}
    {k line : Nat} {x : Test} (plain : path.Plain)
    (added : t.addTestWithId (SuiteId.of path unit) (TestId.of path name k) name path line =
      .ok (t', x)) :
    t'.Owned := by
  obtain ⟨-, new, -⟩ := addTestWithId_ok added
  constructor <;> intro s' member <;>
    obtain ⟨s, old, key, unit, home, origin⟩ := mem_addTestWithId added member <;> rw [home]
  · exact owned.plain s old
  · rw [key, unit]
    exact owned.keys s old
  · intro y held
    rcases origin y held with old' | ⟨rfl, holds⟩
    · exact owned.tests s old y old'
    · -- The suite that takes the test is one of the same document, for its key says so.
      have here : s.path = path := by
        rw [owned.keys s old] at holds
        exact (SuiteId.of_inj (owned.plain s old) plain holds).1
      rw [new]
      exact ⟨here.symm, k, by rw [here]⟩

theorem Owned.insertInto {t : Tree} (owned : t.Owned) {d : Document} (plain : d.path.Plain) :
    (d.insertInto t).tree.Owned := by
  refine d.insertInto_induction t owned (fun _ _ _ _ _ owned added => owned.addSuite plain added) ?_
  intro t t' x unit _ mark _ owned added
  obtain ⟨k, -, -, found, -⟩ := t.freeTestId_least d.path mark.name
  rw [found] at added
  exact owned.addTestWithId plain added

theorem Owned.apart {t : Tree} (owned : t.Owned) {path : Path} (plain : path.Plain)
    (foreign : ∀ s ∈ t.suites, s.path ≠ path) : t.Apart path where
  suites s member name same := by
    rw [owned.keys s member] at same
    exact foreign s member (SuiteId.of_inj (owned.plain s member) plain same).1
  tests x member name k same := by
    obtain ⟨s, holder, held⟩ := (t.mem_tests x).1 member
    obtain ⟨-, j, key⟩ := owned.tests s holder x held
    rw [key] at same
    exact foreign s holder (TestId.path_inj (owned.plain s holder) plain same)

theorem Owned.removeDocument {t : Tree} (owned : t.Owned) (path : Path) :
    (t.removeDocument path).Owned :=
  owned.sublist fun _ member => (mem_removeDocument.1 member).1

theorem Owned.above {others t : Tree} (first : others.Owned) (second : t.Owned) :
    (others.above t).Owned := by
  constructor <;> simp only [Tree.above, List.mem_append] <;> rintro s (member | member)
  · exact first.plain s member
  · exact second.plain s member
  · exact first.keys s member
  · exact second.keys s member
  · exact first.tests s member
  · exact second.tests s member

end Tree

namespace Document

theorem path_scan (path : Path) (source : String) : (scan path source).path = path :=
  rfl

def fresh (path : Path) (source : String) : Insertion :=
  (scan path source).insertInto {}

theorem path_of_insertInto (d : Document) :
    ∀ s ∈ (d.insertInto {}).tree.suites, s.path = d.path := by
  refine d.insertInto_induction (P := fun t => ∀ s ∈ t.suites, s.path = d.path) {} (by simp) ?_ ?_
  · intro t t' s unit _ same added
    obtain ⟨-, rfl, rfl⟩ := Tree.addSuite_ok added
    simpa [or_imp, forall_and] using same
  · intro t t' x unit _ mark _ same added s' member
    obtain ⟨s, old, -, -, home, -⟩ := Tree.mem_addTestWithId added member
    exact home.trans (same s old)

variable {t : Tree} {path : Path}

theorem insertInto_fresh (owned : t.Owned) (plain : path.Plain) (source : String)
    (foreign : ∀ s ∈ t.suites, s.path ≠ path) :
    (scan path source).insertInto t = (fresh path source).above t :=
  (scan path source).insertInto_apart (owned.apart plain foreign)

theorem replaceIn_fresh (owned : t.Owned) (plain : path.Plain) (source : String) :
    (scan path source).replaceIn t = (fresh path source).above (t.removeDocument path) := by
  refine insertInto_fresh (owned.removeDocument path) plain source ?_
  rintro s member here
  exact (Tree.mem_removeDocument.1 member).2 (by rw [here]; rfl)

def blockOf (path : Path) : Option String → List Suite
  | some source => (fresh path source).tree.suites
  | none => []

@[simp] theorem blockOf_some (path : Path) (source : String) :
    blockOf path (some source) = (fresh path source).tree.suites := rfl

@[simp] theorem blockOf_none (path : Path) : blockOf path none = [] := rfl

theorem path_of_blockOf (path : Path) (text : Option String) :
    ∀ s ∈ blockOf path text, s.path = path := by
  cases text with
  | some source => exact (scan path source).path_of_insertInto
  | none => simp

theorem owned_blockOf (plain : path.Plain) (text : Option String) :
    Tree.Owned ⟨blockOf path text⟩ := by
  cases text with
  | some source => exact Tree.owned_empty.insertInto (d := scan path source) plain
  | none => exact Tree.owned_empty

end Document

namespace Tree

def replaced (t : Tree) (path : Path) (text : Option String) : Tree :=
  ⟨(t.suites.filter fun s => ¬ s.path.Same path) ++ Document.blockOf path text⟩

theorem replaced_some (t : Tree) (path : Path) (source : String) :
    t.replaced path (some source) =
      (t.removeDocument path).above (Document.fresh path source).tree :=
  rfl

@[simp] theorem replaced_none (t : Tree) (path : Path) :
    t.replaced path none = t.removeDocument path := by
  simp [replaced, removeDocument]

variable {t : Tree} {p q : Path}

theorem Owned.replaced (owned : t.Owned) (plain : p.Plain) (text : Option String) :
    (t.replaced p text).Owned :=
  (owned.removeDocument p).above (Document.owned_blockOf plain text)

theorem replaced_replaced (same : p.Same q) (before text : Option String) :
    (t.replaced p before).replaced q text = t.replaced q text := by
  have gone : (Document.blockOf p before).filter (fun s => ¬ s.path.Same q) = [] := by
    simpa using fun s member => Document.path_of_blockOf p before s member ▸ same
  have again (s : Suite) : s.path.Same p ↔ s.path.Same q := by
    unfold Path.Same at same ⊢
    rw [same]
  rw [replaced, replaced, List.filter_append, gone]
  simp [Tree.replaced, again]

theorem replaced_replaced_of_not_same (different : ¬ p.Same q) (a b : Option String) :
    (t.replaced p a).replaced q b =
      ⟨(t.suites.filter fun s => ¬ s.path.Same p ∧ ¬ s.path.Same q) ++
        Document.blockOf p a ++ Document.blockOf q b⟩ := by
  have stays : (Document.blockOf p a).filter (fun s => ¬ s.path.Same q) = Document.blockOf p a := by
    rw [List.filter_eq_self]
    simpa using fun s member => Document.path_of_blockOf p a s member ▸ different
  rw [replaced, replaced, List.filter_append, stays, List.filter_filter]
  simp [Bool.and_comm]

end Tree

/-- The trees that discovering and reconciling documents at plain paths can build. A document that
cannot be read any more is only evicted. -/
inductive Tree.Built : Tree → Prop where
  | empty : Built {}
  | discovered {t : Tree} {path : Path} (source : String) :
    t.Built → path.Plain → Built ((Document.scan path source).insertInto t).tree
  | reconciled {t : Tree} {path : Path} (source : String) :
    t.Built → path.Plain → Built ((Document.scan path source).replaceIn t).tree
  | evicted {t : Tree} (path : Path) : t.Built → Built (t.removeDocument path)

theorem Tree.Built.owned {t : Tree} (built : t.Built) : t.Owned := by
  induction built with
  | empty => exact owned_empty
  | discovered source _ plain owned => exact owned.insertInto plain
  | reconciled source _ plain owned =>
    rw [Document.replaceIn_fresh owned plain]
    exact owned.replaced plain (some source)
  | evicted path _ owned => exact owned.removeDocument path

end TestExplorer
