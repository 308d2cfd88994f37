import Mathlib.Data.List.Nodup
import TestExplorer.Run.Session

set_option autoImplicit false

namespace TestExplorer

theorem TestState.ofOutcome_isTerminal (o : Outcome) : (TestState.ofOutcome o).isTerminal := by
  cases o <;> rfl

namespace Session

def queued (items : List WorkItem) : List (TestId × TestState) :=
  items.map fun item => (item.id, .queued)

/-- The verdicts of the tests behind, then the tests ahead. -/
structure Stands (session : Session) (behind : List (TestId × TestState))
    (ahead : List WorkItem) : Prop where
  states : session.states = behind ++ queued ahead
  settled : ∀ entry ∈ behind, entry.2.isTerminal
  distinct : (behind.map (·.1) ++ ahead.map (·.id)).Nodup

variable {session : Session} {behind : List (TestId × TestState)} {item : WorkItem}
  {ahead : List WorkItem}

theorem stands_ofPlan {items : List WorkItem} (distinct : (items.map (·.id)).Nodup) :
    (ofPlan items).Stands [] items :=
  ⟨rfl, by simp, by simpa using distinct⟩

theorem moveFirst_append {id : TestId} (absent : id ∉ behind.map (·.1)) (state next : TestState)
    (allowed : TestState → Bool) (rest : List (TestId × TestState)) :
    moveFirst id next allowed (behind ++ (id, state) :: rest) =
      if allowed state then some (behind ++ (id, next) :: rest) else none := by
  induction behind with
  | nil => simp [moveFirst]
  | cons entry behind ih =>
    obtain ⟨known, old⟩ := entry
    have other : ¬ known = id := fun same => absent (by simp [same])
    have later := ih fun member => absent (List.mem_cons_of_mem _ member)
    simp only [List.cons_append, moveFirst, other, if_false, later]
    split <;> rfl

theorem Stands.absent (stands : session.Stands behind (item :: ahead)) :
    item.id ∉ behind.map (·.1) := by
  intro member
  exact (List.nodup_append.1 stands.distinct).2.2 item.id member item.id (by simp) rfl

theorem Stands.finish_start (stands : session.Stands behind (item :: ahead)) (o : Outcome) :
    let finished := (session.start item.id).1.finish item.id o
    finished.2 = true ∧ finished.1.Stands (behind ++ [(item.id, .ofOutcome o)]) ahead := by
  have started : (session.start item.id).1 = ⟨behind ++ (item.id, .started) :: queued ahead⟩ := by
    simp [start, transition, stands.states, queued, moveFirst_append stands.absent]
  have finished : (session.start item.id).1.finish item.id o =
      (⟨behind ++ (item.id, .ofOutcome o) :: queued ahead⟩, true) := by
    simp [started, finish, transition, moveFirst_append stands.absent, TestState.isTerminal]
  rw [finished]
  refine ⟨rfl, by simp, ?settled, by simpa using stands.distinct⟩
  intro entry member
  rcases List.mem_append.1 member with old | new
  · exact stands.settled entry old
  · obtain rfl := List.mem_singleton.1 new
    exact TestState.ofOutcome_isTerminal o

theorem Stands.unfinished (stands : session.Stands behind ahead) :
    session.unfinished = ahead.length := by
  have none : behind.countP (fun entry => !entry.2.isTerminal) = 0 := by
    simpa [List.countP_eq_zero] using stands.settled
  have all : (queued ahead).countP (fun entry => !entry.2.isTerminal) = ahead.length := by
    rw [queued, List.countP_map, List.countP_eq_length.2]
    exact fun item _ => rfl
  rw [Session.unfinished, stands.states, List.countP_append, none, all, Nat.zero_add]

end Session

end TestExplorer
