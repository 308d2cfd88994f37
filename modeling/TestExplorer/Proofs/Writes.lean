import Mathlib.Data.List.Induction
import TestExplorer.Proofs.Discovery

set_option autoImplicit false

namespace TestExplorer

variable {α β σ : Type}

inductive TreeWrite where
  | clear
  | evict (path : Path)
  | insert (document : Document)

namespace TreeWrite

def of? : StateAction → Option TreeWrite
  | .clearTree => some .clear
  | .evict path => some (.evict path)
  | .insert document => some (.insert document)
  | _ => none

def apply (t : Tree) : TreeWrite → Tree
  | clear => {}
  | evict path => t.removeDocument path
  | insert document => (document.insertInto t).tree

-- A later insertion of a document takes the place of an earlier one.
def stand (p : Path) (before : Option Document) : TreeWrite → Option Document
  | clear => none
  | evict path => if path.Same p then none else before
  | insert document => if document.path.Same p then some document else before

/-- The scan by which `p` stands in the tree: the last that entered and has not left since. -/
def standing (p : Path) (writes : List TreeWrite) : Option Document :=
  writes.foldl (stand p) none

end TreeWrite

theorem Engine.perform_tree (e : Engine) (action : StateAction) :
    (e.perform action).2.tree = (TreeWrite.of? action).toList.foldl TreeWrite.apply e.tree := by
  cases action with
  | cancelActive =>
    simp only [perform]
    split <;> rfl
  | _ => rfl

theorem Tree.Reachable.write {t : Tree} (reachable : t.Reachable) (write : TreeWrite) :
    (write.apply t).Reachable := by
  cases write with
  | clear => exact .empty
  | evict path => exact reachable.removeDocument path
  | insert document => exact reachable.insertInto document

theorem Tree.Reachable.writes {t : Tree} (reachable : t.Reachable) (writes : List TreeWrite) :
    (writes.foldl TreeWrite.apply t).Reachable :=
  List.foldlRecOn (motive := Tree.Reachable) writes TreeWrite.apply reachable
    fun _ reachable write _ => reachable.write write

theorem Engine.reachable_perform {e : Engine} (reachable : e.tree.Reachable)
    (action : StateAction) : (e.perform action).2.tree.Reachable := by
  rw [perform_tree]
  exact reachable.writes _

namespace Activity

def Step.write? : Step σ → Option TreeWrite
  | .state action _ => TreeWrite.of? action
  | .host _ _ => none

def writes (h : Host σ) (x : Activity α) (s : Engine × σ) : List TreeWrite :=
  (x.steps h s).filterMap Step.write?

variable (h : Host σ) (s : Engine × σ)

@[simp] theorem writes_done (a : α) : (done a).writes h s = [] := rfl

@[simp] theorem writes_pure (a : α) : (pure a : Activity α).writes h s = [] := rfl

@[simp] theorem writes_state (action : StateAction) (next : action.Answer → Activity α) :
    (state action next).writes h s = (TreeWrite.of? action).toList ++
      (next (s.1.perform action).1).writes h ((s.1.perform action).2, s.2) := by
  cases written : TreeWrite.of? action <;> simp [writes, Step.write?, written]

@[simp] theorem writes_host (action : HostAction) (next : action.Answer → Activity α) :
    (host action next).writes h s = (next (h action s).1).writes h (h action s).2 := rfl

@[simp] theorem writes_bind (x : Activity α) (f : α → Activity β) :
    (x >>= f).writes h s = x.writes h s ++ (f (x.exec h s).1).writes h (x.exec h s).2 := by
  simp [writes]

@[simp] theorem writes_map (g : α → β) (x : Activity α) : (g <$> x).writes h s = x.writes h s := by
  simp [writes]

@[simp] theorem writes_discard (x : Activity α) : (discard x).writes h s = x.writes h s :=
  writes_map h s _ x

theorem exec_tree {h : Host σ} (keeps : ∀ action s, (h action s).2.1.tree = s.1.tree)
    (x : Activity α) (s : Engine × σ) :
    (x.exec h s).2.1.tree = (x.writes h s).foldl TreeWrite.apply s.1.tree := by
  induction x generalizing s with
  | done a => rfl
  | state action next ih =>
    rw [exec_state, ih, writes_state, List.foldl_append, ← Engine.perform_tree]
  | host action next ih => rw [exec_host, ih, writes_host, keeps]

theorem exec_reachable {h : Host σ} (keeps : ∀ action s, (h action s).2.1.core = s.1.core)
    (x : Activity α) {s : Engine × σ} (reachable : s.1.tree.Reachable) :
    (x.exec h s).2.1.tree.Reachable := by
  rw [exec_tree fun action s => congrArg Prod.fst (keeps action s)]
  exact reachable.writes _

end Activity

@[simp] theorem writes_holding (h : Activity.Host σ) (s : Engine × σ) (lock : Lock)
    (body : Activity α) : (holding lock body).writes h s = body.writes h s := by
  have acquired : Activity.Step.write? (.state (.acquire lock) s) = none := rfl
  have released (s : Engine × σ) : Activity.Step.write? (.state (.release lock) s) = none := rfl
  simp [Activity.writes, acquired, released]

namespace TreeWrite

variable (p : Path)

theorem standing_append (a b : List TreeWrite) :
    standing p (a ++ b) = b.foldl (stand p) (standing p a) :=
  List.foldl_append

end TreeWrite

/-! ## The suites of a document -/

theorem Document.suite_of_inserted (d : Document) (t : Tree) :
    ∀ s ∈ (d.insertInto t).tree.suites,
      (s.path = d.path ∧ ∃ unit ∈ d.units, s.name = unit.name) ∨
        ∃ old ∈ t.suites, s.path = old.path ∧ s.name = old.name := by
  refine d.insertInto_induction
    (P := fun t' => ∀ s ∈ t'.suites, (s.path = d.path ∧ ∃ unit ∈ d.units, s.name = unit.name) ∨
      ∃ old ∈ t.suites, s.path = old.path ∧ s.name = old.name) t
    (fun s member => .inr ⟨s, member, rfl, rfl⟩) ?_ ?_
  · intro t₁ t₂ s unit listed known added s' member
    rcases Tree.mem_addSuite added member with old | rfl
    · exact known s' old
    · exact .inl ⟨rfl, unit, listed, rfl⟩
  · intro t₁ t₂ x unit _ mark _ known added s' member
    obtain ⟨s, old, -, name, path, -⟩ := Tree.mem_addTestWithId added member
    rw [path, name]
    exact known s old

namespace TreeWrite

variable (p : Path)

def layer (before : List Document) : TreeWrite → List Document
  | clear => []
  | evict path => if path.Same p then [] else before
  | insert document => if document.path.Same p then document :: before else before

/-- The scans of `p` that have entered since the document left last, the latest first. -/
def layers (writes : List TreeWrite) : List Document :=
  writes.foldl (layer p) []

theorem head?_layer (before : List Document) (write : TreeWrite) :
    (layer p before write).head? = stand p before.head? write := by
  cases write with
  | clear => rfl
  | evict path => simp only [layer, stand]; split <;> rfl
  | insert document => simp only [layer, stand]; split <;> rfl

theorem head?_foldl_layer (before : List Document) (writes : List TreeWrite) :
    (writes.foldl (layer p) before).head? = writes.foldl (stand p) before.head? :=
  (List.foldl_hom List.head? fun before write => (head?_layer p before write).symm).symm

theorem head?_layers (writes : List TreeWrite) : (layers p writes).head? = standing p writes :=
  head?_foldl_layer p [] writes

theorem foldl_layer_inserts (before : List Document) (documents : List Document) :
    (documents.map insert).foldl (layer p) before =
      (documents.filter (·.path.Same p)).reverse ++ before := by
  induction documents generalizing before with
  | nil => rfl
  | cons d rest ih =>
    rw [List.map_cons, List.foldl_cons, ih]
    by_cases here : d.path.Same p <;> simp [layer, here]

theorem foldl_stand_inserts (before : Option Document) (documents : List Document) :
    (documents.map insert).foldl (stand p) before =
      ((documents.filter (·.path.Same p)).getLast?).or before := by
  have top := head?_foldl_layer p before.toList (documents.map insert)
  rw [foldl_layer_inserts, Option.head?_toList, List.head?_append, List.head?_reverse,
    Option.head?_toList] at top
  exact top.symm

theorem layers_append (a b : List TreeWrite) :
    layers p (a ++ b) = b.foldl (layer p) (layers p a) :=
  List.foldl_append

theorem mem_of_layers {writes : List TreeWrite} {d : Document} (stands : d ∈ layers p writes) :
    insert d ∈ writes ∧ d.path.Same p := by
  induction writes using List.reverseRecOn with
  | nil => cases stands
  | append_singleton writes last ih =>
    rw [layers_append, List.foldl_cons, List.foldl_nil] at stands
    cases last with
    | clear => cases stands
    | evict path =>
      rw [layer] at stands
      split at stands
      next => cases stands
      next => exact (ih stands).imp_left (List.mem_append_left _)
    | insert document =>
      rw [layer] at stands
      split at stands
      next here =>
        rcases List.mem_cons.1 stands with rfl | old
        · exact ⟨by simp, here⟩
        · exact (ih old).imp_left (List.mem_append_left _)
      next => exact (ih stands).imp_left (List.mem_append_left _)

theorem mem_of_standing {writes : List TreeWrite} {d : Document}
    (stands : standing p writes = some d) : insert d ∈ writes ∧ d.path.Same p :=
  mem_of_layers p (List.mem_of_head? ((head?_layers p writes).trans stands))

variable {p}

theorem unit_of_layers {writes : List TreeWrite} :
    ∀ s ∈ (writes.foldl apply {}).suites, s.path.Same p →
      ∃ d ∈ layers p writes, ∃ unit ∈ d.units, s.name = unit.name := by
  induction writes using List.reverseRecOn with
  | nil => simp
  | append_singleton writes last ih =>
    rw [layers_append, List.foldl_append]
    intro s member same
    simp only [List.foldl_cons, List.foldl_nil] at member ⊢
    cases last with
    | clear => contradiction
    | evict path =>
      obtain ⟨old, away⟩ := Tree.mem_removeDocument.1 member
      have other : ¬ path.Same p := fun here => away (same.trans here.symm)
      rw [layer, if_neg other]
      exact ih s old same
    | insert document =>
      rcases document.suite_of_inserted _ s member with ⟨path, named⟩ | ⟨old, member', path, name⟩
      · have here : document.path.Same p := path ▸ same
        rw [layer, if_pos here]
        exact ⟨document, List.mem_cons_self, named⟩
      · obtain ⟨d, layered, named⟩ := ih old member' (path ▸ same)
        refine ⟨d, ?_, name ▸ named⟩
        simp only [layer]
        split
        next => exact List.mem_cons_of_mem _ layered
        next => exact layered

end TreeWrite

end TestExplorer
