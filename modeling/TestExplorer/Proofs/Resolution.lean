import TestExplorer.Proofs.History
import TestExplorer.Proofs.Tree.Lookup
import TestExplorer.Proofs.Writes

set_option autoImplicit false

namespace TestExplorer

variable {σ : Type}

namespace Tree

def nodeIds (t : Tree) : List String :=
  t.nodes.flatMap fun node => node.id :: node.children.map (·.id)

variable {t : Tree}

theorem mem_nodeIds {id : String} :
    id ∈ t.nodeIds ↔ ∃ s ∈ t.suites, s.id.text = id ∨ ∃ x ∈ s.tests, x.id.text = id := by
  simp [nodeIds, nodes, Node.ofSuite, Node.ofTest, eq_comm]

theorem find?_not_shown {id : String} (unknown : id ∉ t.nodeIds) : t.find? id = none := by
  rw [mem_nodeIds] at unknown
  push Not at unknown
  exact find?_eq_none (fun s member => (unknown s member).1) fun s member => (unknown s member).2

theorem Keyed.childrenOf_suite (keyed : t.Keyed) {s : Suite} (member : s ∈ t.suites) :
    t.childrenOf s.id.text = s.tests.map Node.ofTest := by
  rw [childrenOf, keyed.find?_suite member]

theorem Keyed.childrenOf_test (keyed : t.Keyed) {s : Suite} {x : Test} (member : s ∈ t.suites)
    (held : x ∈ s.tests) : t.childrenOf x.id.text = [] := by
  rw [childrenOf, keyed.find?_test member held]

theorem childrenOf_not_shown {id : String} (unknown : id ∉ t.nodeIds) : t.childrenOf id = [] := by
  rw [childrenOf, find?_not_shown unknown]

/-! ## Trees of controllers -/

theorem Operated.perform (operated : t.Operated) (op : Operation) (good : op.IsIssued) :
    (op.perform t).2.Operated := by
  obtain ⟨ops, issued, rfl⟩ := operated
  refine ⟨ops ++ [op], ?_, by simp [Operation.performAll]⟩
  intro op' member
  rcases List.mem_append.1 member with old | new
  · exact issued op' old
  · exact List.mem_singleton.1 new ▸ good

theorem Operated.write (operated : t.Operated) (write : TreeWrite) :
    (write.apply t).Operated := by
  cases write with
  | clear => exact operated.perform .clear trivial
  | evict path => exact operated.perform (.remove path) trivial
  | insert document => exact operated.perform (.insert document) trivial

end Tree

theorem Activity.operated_exec {α : Type} {h : Host σ}
    (keeps : ∀ action s, (h action s).2.1.tree = s.1.tree) (x : Activity α) {s : Engine × σ}
    (operated : s.1.tree.Operated) : (x.exec h s).2.1.tree.Operated := by
  rw [exec_tree keeps]
  exact List.foldlRecOn (motive := Tree.Operated) _ TreeWrite.apply operated
    fun _ operated write _ => operated.write write

/-! ## Requests -/

namespace Controller

variable (c : Controller) (h : Activity.Host σ) (s : Engine × σ)

theorem ensureDiscovered_idle (discovered : s.1.discovered = true) :
    c.ensureDiscovered.exec h s = ((), s) := by
  simp [ensureDiscovered, Engine.perform, discovered]

theorem discovered_ensureDiscovered : (c.ensureDiscovered.exec h s).2.1.discovered = true := by
  cases discovered : s.1.discovered with
  | true => rw [ensureDiscovered_idle c h s discovered, discovered]
  | false => simp [ensureDiscovered, Engine.perform, discovered]

def shown (t : Tree) : Option String → List Node
  | none => t.nodes
  | some id => t.childrenOf id

theorem exec_resolve (live : s.1.disposed = false) (id : Option String) :
    (c.resolve id).exec h s =
      (.ok (shown (c.ensureDiscovered.exec h s).2.1.tree id), (c.ensureDiscovered.exec h s).2) := by
  rw [resolve, exec_live h live]
  cases id <;> simp [Engine.perform, shown]

end Controller

namespace Tree

variable {t : Tree}

/-- Look-ups invert the view that hosts are shown, and so does a controller that is asked for
children beside a listing of its roots or after it. -/
theorem Operated.resolution (operated : t.Operated) :
    (∀ node ∈ t.nodes, ∃ suite ∈ t.suites, node = .ofSuite suite ∧
      t.find? node.id = some (.suite suite) ∧ t.suite? suite.id = some suite ∧
        ∀ child ∈ node.children, ∃ x ∈ suite.tests, child = .ofTest x ∧
          t.find? child.id = some (.test x suite) ∧ t.test? x.id = some (x, suite)) ∧
      (∀ id ∉ t.nodeIds, t.find? id = none) ∧
      ∀ {σ : Type} (c : Controller) (h : Activity.Host σ) (s : Engine × σ),
        let listed := (c.resolve none).exec h s
        s.1.disposed = false → listed.2.1.tree = t →
          listed.1 = .ok t.nodes ∧
            ∀ s', s' = s ∨ s' = listed.2 ∧ s'.1.disposed = false →
              let resolved (id : String) := ((c.resolve (some id)).exec h s').1
              (∀ node ∈ t.nodes, resolved node.id = .ok node.children ∧
                ∀ child ∈ node.children, resolved child.id = .ok child.children) ∧
              ∀ id ∉ t.nodeIds, resolved id = .ok [] := by
  have keyed := operated.keyed
  refine ⟨fun node shown => ?_, fun id => find?_not_shown, ?_⟩
  · obtain ⟨suite, member, rfl⟩ := List.mem_map.1 shown
    refine ⟨suite, member, rfl, keyed.find?_suite member, keyed.suite?_eq member, ?_⟩
    intro child shown
    obtain ⟨x, held, rfl⟩ := List.mem_map.1 shown
    exact ⟨x, held, rfl, keyed.find?_test member held, keyed.test?_eq member held⟩
  · intro σ c h s listed live stands
    have first := c.exec_resolve h s live none
    have after : listed.2 = (c.ensureDiscovered.exec h s).2 := congrArg Prod.snd first
    refine ⟨(congrArg Prod.fst first).trans (by rw [← after, stands]; rfl), fun s' asked => ?_⟩
    have live' : s'.1.disposed = false := by
      rcases asked with rfl | ⟨-, live'⟩ <;> assumption
    have read : (c.ensureDiscovered.exec h s').2.1.tree = t := by
      rcases asked with rfl | ⟨rfl, -⟩
      · rw [← after, stands]
      · rw [c.ensureDiscovered_idle h listed.2 (after ▸ c.discovered_ensureDiscovered h s), stands]
    have answer (id : String) : ((c.resolve (some id)).exec h s').1 = .ok (t.childrenOf id) := by
      rw [c.exec_resolve h s' live', read]
      rfl
    refine ⟨fun node shown => ?_, fun id unknown => ?_⟩
    · obtain ⟨suite, member, rfl⟩ := List.mem_map.1 shown
      refine ⟨(answer _).trans (congrArg _ (keyed.childrenOf_suite member)), fun child shown => ?_⟩
      obtain ⟨x, held, rfl⟩ := List.mem_map.1 shown
      exact (answer _).trans (congrArg _ (keyed.childrenOf_test member held))
    · exact (answer id).trans (congrArg _ (childrenOf_not_shown unknown))

theorem resolution_of_misleading_names :
    let c : Controller := { roots := [.ofString "/ws"], settings := {} }
    let saved := ":- begin_tests(test:u).\ntest(suite:x).\ntest(suite:x).\n"
    let site := FileSystem.layout (.ofString "/ws")
      [(.ofString "a.pl", .file (.bytes (Text.toBytes saved)))]
    let world : Rehearsal := { site, controller := c }
    let listed := (c.resolve none).exec Rehearsal.quietHost ({}, world)
    let t := listed.2.1.tree
    t.Operated ∧ t.nodeIds =
        ["suite:/ws/a.pl:test:u", "test:/ws/a.pl:suite:x", "test:/ws/a.pl:suite:x#2"] ∧
      listed.1 = .ok t.nodes ∧ t.find? "suite:x" = none ∧
      ((c.resolve (some "suite:x")).exec Rehearsal.quietHost listed.2).1 = .ok [] := by
  intro c saved site world listed t
  have keeps (action : HostAction) (s : Engine × Rehearsal) :
      (Rehearsal.quietHost action s).2.1.tree = s.1.tree :=
    congrArg Prod.fst (Rehearsal.quietHost_serves.keeps action s)
  have shown : t.nodeIds =
      ["suite:/ws/a.pl:test:u", "test:/ws/a.pl:suite:x", "test:/ws/a.pl:suite:x#2"] := by
    decide +kernel
  have live : listed.2.1.disposed = false := by decide +kernel
  have done : (c.resolve none).exec Rehearsal.quietHost ({}, world) = listed := rfl
  -- What the listing computes to has no part in the rest.
  clear_value listed
  have operated : t.Operated := by
    have reached := Activity.operated_exec keeps (c.resolve none) (s := ({}, world))
      ⟨[], by simp, rfl⟩
    rwa [done] at reached
  have absent : "suite:x" ∉ t.nodeIds := by
    rw [shown]
    decide
  obtain ⟨-, lookup, requests⟩ := operated.resolution
  obtain ⟨roots, children⟩ := requests c Rehearsal.quietHost ({}, world) rfl (by rw [done])
  simp only [done] at roots children
  exact ⟨operated, shown, roots, lookup _ absent, (children _ (.inr ⟨rfl, live⟩)).2 _ absent⟩

end Tree

end TestExplorer
