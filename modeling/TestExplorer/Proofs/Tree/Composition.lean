import Mathlib.Logic.Function.Basic
import TestExplorer.Proofs.Tree.Replacement

set_option autoImplicit false

namespace TestExplorer

/-- The paths of documents: they are plain, and each document is named by one of them only. -/
structure Documents (docs : Path → Prop) : Prop where
  plain : ∀ p, docs p → p.Plain
  spelling : ∀ p q, docs p → docs q → p.Same q → p = q

theorem Documents.same_iff {docs : Path → Prop} (documents : Documents docs) {p q : Path}
    (doc : docs p) (doc' : docs q) : p.Same q ↔ p = q :=
  ⟨documents.spelling p q doc doc', fun same => same ▸ rfl⟩

/-- Up to the order of the blocks, the tree is made of what each document's text gives alone. -/
def Tree.Composed (docs : Path → Prop) (t : Tree) (text : Path → Option String) : Prop :=
  ∃ order : List Path, order.Nodup ∧ (∀ p ∈ order, docs p) ∧
    (∀ p, p ∈ order ↔ (text p).isSome) ∧
      t.suites = order.flatMap fun p => Document.blockOf p (text p)

namespace Tree

theorem composed_empty (docs : Path → Prop) : Composed docs {} fun _ => none :=
  ⟨[], by simp⟩

namespace Composed

variable {docs : Path → Prop} {t : Tree} {text : Path → Option String}

theorem owned (documents : Documents docs) (composed : t.Composed docs text) : t.Owned := by
  obtain ⟨order, -, within, -, suites⟩ := composed
  have inside (s : Suite) (member : s ∈ t.suites) :
      ∃ p ∈ order, s ∈ Document.blockOf p (text p) := by
    simpa [suites] using member
  constructor <;> intro s member <;> obtain ⟨p, known, held⟩ := inside s member <;>
    have block := Document.owned_blockOf (documents.plain p (within p known)) (text p)
  · exact block.plain s held
  · exact block.keys s held
  · exact block.tests s held

theorem congr {text' : Path → Option String} (composed : t.Composed docs text)
    (same : ∀ p, text p = text' p) : t.Composed docs text' := by
  rwa [← funext same]

theorem foreign (documents : Documents docs) (composed : t.Composed docs text) {p : Path}
    (doc : docs p) (absent : text p = none) : ∀ s ∈ t.suites, ¬ s.path.Same p := by
  obtain ⟨order, -, within, covers, suites⟩ := composed
  intro s member same
  obtain ⟨q, known, held⟩ : ∃ q ∈ order, s ∈ Document.blockOf q (text q) := by
    simpa [suites] using member
  rw [Document.path_of_blockOf q (text q) s held] at same
  obtain rfl := documents.spelling q p (within q known) doc same
  have present := (covers q).1 known
  simp [absent] at present

theorem filter_blocks (documents : Documents docs) (text : Path → Option String) {order : List Path}
    (within : ∀ q ∈ order, docs q) {p : Path} (doc : docs p) (new : Option String) :
    (order.flatMap fun q => Document.blockOf q (text q)).filter (fun s => ¬ s.path.Same p) =
      (order.filter (· ≠ p)).flatMap fun q =>
        Document.blockOf q (Function.update text p new q) := by
  induction order with
  | nil => rfl
  | cons q rest ih =>
    have later := ih fun q member => within q (List.mem_cons_of_mem _ member)
    have path := Document.path_of_blockOf q (text q)
    rw [List.flatMap_cons, List.filter_append, later]
    by_cases here : q = p
    · subst here
      have gone : (Document.blockOf q (text q)).filter (fun s => ¬ s.path.Same q) = [] := by
        simpa using fun s member => (path s member).symm ▸ (rfl : q.Same q)
      rw [gone]
      simp
    · have different : ¬ q.Same p :=
        fun same => here (documents.spelling q p (within q List.mem_cons_self) doc same)
      have stays : (Document.blockOf q (text q)).filter (fun s => ¬ s.path.Same p) =
          Document.blockOf q (text q) := by
        rw [List.filter_eq_self]
        simpa using fun s member => path s member ▸ different
      rw [stays]
      simp [here]

-- When the text of one document changes, its block leaves its place and the new one comes last.
theorem replaced (documents : Documents docs) (composed : t.Composed docs text) {p : Path}
    (doc : docs p) (new : Option String) :
    (t.replaced p new).Composed docs (Function.update text p new) := by
  obtain ⟨order, distinct, within, covers, suites⟩ := composed
  let others := order.filter (· ≠ p)
  have kept := filter_blocks documents text within doc new
  have apart : p ∉ others := by simp [others]
  have known (q : Path) : q ∈ others ↔ (text q).isSome ∧ q ≠ p := by
    simp [others, covers]
  have distinct' : others.Nodup := distinct.filter _
  have within' (q : Path) (member : q ∈ others) : docs q :=
    within q (List.mem_of_mem_filter member)
  cases new with
  | none =>
    refine ⟨others, distinct', within', ?covers, ?suites⟩
    case covers =>
      intro q
      by_cases here : q = p <;> simp [known, here]
    case suites =>
      rw [Tree.replaced, suites, kept]
      simp [others]
  | some source =>
    refine ⟨others ++ [p], ?distinct, ?within, ?covers, ?suites⟩
    case distinct =>
      rw [List.nodup_append_comm]
      exact List.nodup_cons.2 ⟨apart, distinct'⟩
    case within => simpa [or_imp, forall_and, doc] using within'
    case covers =>
      intro q
      by_cases here : q = p <;> simp [known, here]
    case suites =>
      rw [Tree.replaced, suites, kept, List.flatMap_append]
      simp [others]

theorem insertInto (documents : Documents docs) (composed : t.Composed docs text) {p : Path}
    (doc : docs p) (absent : text p = none) (source : String) :
    ((Document.scan p source).insertInto t).tree.Composed docs
      (Function.update text p (some source)) := by
  have foreign := composed.foreign documents doc absent
  have elsewhere : t.removeDocument p = t := by
    rw [removeDocument, List.filter_eq_self.2]
    simpa using foreign
  have inserted := Document.insertInto_fresh (composed.owned documents) (documents.plain p doc)
    source fun s member here => foreign s member (by rw [here]; rfl)
  have replaced := composed.replaced documents doc (some source)
  rw [replaced_some, elsewhere] at replaced
  rwa [inserted]

end Composed

end Tree

end TestExplorer
