import Mathlib.Data.List.Induction
import TestExplorer.Proofs.Run.Session

set_option autoImplicit false

namespace TestExplorer

namespace Session

inductive Call where
  | start (id : TestId)
  | finish (id : TestId) (outcome : Outcome)
  deriving DecidableEq

namespace Call

def id : Call → TestId
  | start id => id
  | finish id _ => id

def isFinish : Call → Bool
  | start _ => false
  | finish _ _ => true

def next : Call → TestState
  | start _ => .started
  | finish _ outcome => .ofOutcome outcome

def isTaken : Call → TestState → Bool
  | start _, state => state == .queued
  | finish _ _, state => !state.isTerminal

def firstVerdict? (test : TestId) (calls : List Call) : Option Outcome :=
  calls.findSome? fun
    | start _ => none
    | finish id outcome => if id = test then some outcome else none

def stateAfter (test : TestId) (calls : List Call) : TestState :=
  match firstVerdict? test calls with
  | some outcome => .ofOutcome outcome
  | none => if start test ∈ calls then .started else .queued

variable {test : TestId} {calls : List Call}

@[simp] theorem firstVerdict?_concat_start (test : TestId) (calls : List Call) (id : TestId) :
    firstVerdict? test (calls ++ [start id]) = firstVerdict? test calls := by
  simp [firstVerdict?, List.findSome?_append]

@[simp] theorem firstVerdict?_concat_finish (test : TestId) (calls : List Call) (id : TestId)
    (outcome : Outcome) :
    firstVerdict? test (calls ++ [finish id outcome]) =
      (firstVerdict? test calls).or (if id = test then some outcome else none) := by
  by_cases own : id = test <;> simp [firstVerdict?, List.findSome?_append, own]

theorem stateAfter_of_some {outcome : Outcome} (known : firstVerdict? test calls = some outcome) :
    stateAfter test calls = .ofOutcome outcome := by
  rw [stateAfter, known]

theorem stateAfter_of_none (unknown : firstVerdict? test calls = none) :
    stateAfter test calls = if start test ∈ calls then .started else .queued := by
  rw [stateAfter, unknown]

theorem firstVerdict?_eq_none_iff :
    firstVerdict? test calls = none ↔ ∀ outcome, finish test outcome ∉ calls := by
  rw [firstVerdict?, List.findSome?_eq_none_iff]
  constructor
  · intro none outcome member
    simpa using none _ member
  · intro none call member
    cases call with
    | start id => rfl
    | finish id outcome =>
      have other : id ≠ test := fun own => none outcome (own ▸ member)
      simp [other]

theorem isTerminal_stateAfter :
    (stateAfter test calls).isTerminal = (firstVerdict? test calls).isSome := by
  unfold stateAfter
  cases firstVerdict? test calls with
  | some outcome => simp [TestState.ofOutcome_isTerminal]
  | none => by_cases started : start test ∈ calls <;> simp [started, TestState.isTerminal]

theorem stateAfter_eq_queued_iff :
    stateAfter test calls = .queued ↔ ∀ call ∈ calls, call.id ≠ test := by
  have terminal (outcome : Outcome) : TestState.ofOutcome outcome ≠ .queued := by
    cases outcome <;> nofun
  constructor
  · intro queued call member same
    have unfinished : firstVerdict? test calls = none := by
      unfold stateAfter at queued
      split at queued
      next outcome _ => exact absurd queued (terminal outcome)
      next none => exact none
    cases call with
    | start known =>
      obtain rfl : known = test := same
      simp [stateAfter, unfinished, member] at queued
    | finish known outcome =>
      obtain rfl : known = test := same
      exact absurd member (firstVerdict?_eq_none_iff.1 unfinished outcome)
  · intro untouched
    have unfinished : firstVerdict? test calls = none :=
      firstVerdict?_eq_none_iff.2 fun _ member => untouched _ member rfl
    have unstarted : start test ∉ calls := fun member => untouched _ member rfl
    simp [stateAfter, unfinished, unstarted]

theorem stateAfter_concat (test : TestId) (calls : List Call) (call : Call) :
    stateAfter test (calls ++ [call]) =
      if call.id = test ∧ call.isTaken (stateAfter test calls) then call.next
      else stateAfter test calls := by
  cases known : firstVerdict? test calls with
  | some outcome =>
    -- A verdict is terminal, so neither kind of call is taken any more.
    have refused : call.isTaken (.ofOutcome outcome) = false := by
      cases call <;> cases outcome <;> rfl
    have kept : firstVerdict? test (calls ++ [call]) = some outcome := by
      cases call <;> simp [known]
    simp [stateAfter_of_some known, stateAfter_of_some kept, refused]
  | none =>
    cases call with
    | start id =>
      have still : firstVerdict? test (calls ++ [start id]) = none := by simp [known]
      have started : start test ∈ calls ++ [start id] ↔ start test ∈ calls ∨ id = test := by
        simp [eq_comm]
      rw [stateAfter_of_none known, stateAfter_of_none still]
      simp only [started, isTaken, next, Call.id]
      by_cases earlier : start test ∈ calls <;> by_cases own : id = test <;> simp [earlier, own]
    | finish id outcome =>
      have started : start test ∈ calls ++ [finish id outcome] ↔ start test ∈ calls := by simp
      by_cases own : id = test
      case pos =>
        have first : firstVerdict? test (calls ++ [finish id outcome]) = some outcome := by
          simp [known, own]
        rw [stateAfter_of_none known, stateAfter_of_some first]
        by_cases earlier : start test ∈ calls <;>
          simp [earlier, own, isTaken, next, Call.id, TestState.isTerminal]
      case neg =>
        have still : firstVerdict? test (calls ++ [finish id outcome]) = none := by
          simp [known, own]
        simp [stateAfter_of_none known, stateAfter_of_none still, own, Call.id]

-- A call that is taken opens no test again, and a finish closes one.
theorem spends {call : Call} {state : TestState} (taken : call.isTaken state = true) :
    (if state.isTerminal then 0 else 1) =
      (if call.next.isTerminal then 0 else 1) + if call.isFinish then 1 else 0 := by
  cases call with
  | start id =>
    obtain rfl : state = .queued := by simpa [isTaken] using taken
    rfl
  | finish id outcome =>
    have unfinished : state.isTerminal = false := by simpa [isTaken] using taken
    simp [unfinished, next, TestState.ofOutcome_isTerminal, isFinish]

end Call

def call (s : Session) : Call → Session × Bool
  | .start id => s.start id
  | .finish id outcome => s.finish id outcome

def calls (s : Session) : List Call → Session × List (Call × Bool)
  | [] => (s, [])
  | c :: rest =>
    let (s, answer) := s.call c
    let (s, later) := s.calls rest
    (s, (c, answer) :: later)

theorem call_eq (s : Session) (c : Call) : s.call c = s.transition c.id c.next c.isTaken := by
  cases c <;> rfl

/-- One test of the session has gone from a state to another. -/
structure Moves (s s' : Session) (test : TestId) (old new : TestState) : Prop where
  before : s.state? test = some old
  after : ∀ id, s'.state? id = if id = test then some new else s.state? id
  unfinished : s'.unfinished + (if old.isTerminal then 0 else 1) =
    s.unfinished + (if new.isTerminal then 0 else 1)

theorem state?_cons (known id : TestId) (state : TestState) (rest : List (TestId × TestState)) :
    state? ⟨(known, state) :: rest⟩ id = if known = id then some state else state? ⟨rest⟩ id := by
  by_cases here : known = id <;> simp [state?, here]

theorem moveFirst_cases (id : TestId) (next : TestState) (allowed : TestState → Bool)
    (states : List (TestId × TestState)) :
    (∃ old states', allowed old = true ∧ moveFirst id next allowed states = some states' ∧
        Moves ⟨states⟩ ⟨states'⟩ id old next) ∨
      ((∀ old, state? ⟨states⟩ id = some old → allowed old = false) ∧
        moveFirst id next allowed states = none) := by
  induction states with
  | nil => exact .inr ⟨nofun, rfl⟩
  | cons entry rest ih =>
    obtain ⟨known, old⟩ := entry
    by_cases here : known = id
    case pos =>
      subst here
      cases taken : allowed old with
      | true =>
        refine .inl ⟨old, (known, next) :: rest, taken, by simp [moveFirst, taken], ?_⟩
        refine ⟨by simp [state?_cons], fun other => ?_, ?_⟩
        · by_cases same : known = other <;> simp [state?_cons, same, eq_comm]
        · cases before : old.isTerminal <;> cases after : next.isTerminal <;>
            simp [unfinished, before, after]
      | false => exact .inr ⟨by simp [state?_cons, taken], by simp [moveFirst, taken]⟩
    case neg =>
      rcases ih with ⟨was, states', taken, moved, moves⟩ | ⟨refused, none⟩
      · refine .inl ⟨was, (known, old) :: states', taken, by simp [moveFirst, here, moved], ?_⟩
        refine ⟨by simp [state?_cons, here, moves.before], fun other => ?_, ?_⟩
        · by_cases same : known = other
          · subst same
            simp [state?_cons, here]
          · simpa [state?_cons, same] using moves.after other
        · have later := moves.unfinished
          simp only [unfinished, List.countP_cons] at later ⊢
          omega
      · exact .inr ⟨by simpa [state?_cons, here] using refused, by simp [moveFirst, here, none]⟩

theorem call_cases (s : Session) (c : Call) :
    (∃ old s', c.isTaken old = true ∧ s.call c = (s', true) ∧ s.Moves s' c.id old c.next) ∨
      ((∀ old, s.state? c.id = some old → c.isTaken old = false) ∧ s.call c = (s, false)) := by
  rw [call_eq, transition]
  rcases moveFirst_cases c.id c.next c.isTaken s.states with
    ⟨old, states', taken, moved, moves⟩ | ⟨refused, none⟩
  · exact .inl ⟨old, ⟨states'⟩, taken, by rw [moved], moves⟩
  · exact .inr ⟨refused, by rw [none]⟩

theorem calls_concat (s : Session) (earlier : List Call) (c : Call) :
    s.calls (earlier ++ [c]) =
      (((s.calls earlier).1.call c).1,
        (s.calls earlier).2 ++ [(c, ((s.calls earlier).1.call c).2)]) := by
  induction earlier generalizing s with
  | nil => rfl
  | cons first rest ih => simp [calls, ih]

structure Follows (items : List WorkItem) (s : Session) (log : List (Call × Bool)) : Prop where
  states : ∀ id, s.state? id =
    if id ∈ items.map (·.id) then some (Call.stateAfter id (log.map (·.1))) else none
  answers : ∀ before c answer after, log = before ++ (c, answer) :: after →
    (answer = true ↔
      c.id ∈ items.map (·.id) ∧ c.isTaken (Call.stateAfter c.id (before.map (·.1))) = true)
  unfinished : s.unfinished + log.countP (fun entry => entry.1.isFinish && entry.2) = items.length

theorem follows_ofPlan (items : List WorkItem) : Follows items (ofPlan items) [] where
  states id := by
    induction items with
    | nil => rfl
    | cons item rest ih =>
      rw [ofPlan, List.map_cons, state?_cons, ← ofPlan, ih]
      by_cases here : item.id = id
      · simp [here, Call.stateAfter, Call.firstVerdict?]
      · simp [here, Ne.symm here]
  answers := by simp
  unfinished := by simp [ofPlan, Session.unfinished, List.countP_map, TestState.isTerminal]

namespace Follows

variable {items : List WorkItem} {s : Session} {log : List (Call × Bool)}
  (follows : Follows items s log)

include follows

-- The earlier answers stay what they were.
theorem answers_concat {c : Call} {answer : Bool}
    (accepted : answer = true ↔ c.id ∈ items.map (·.id) ∧
      c.isTaken (Call.stateAfter c.id (log.map (·.1))) = true) :
    ∀ before c' answer' after, log ++ [(c, answer)] = before ++ (c', answer') :: after →
      (answer' = true ↔ c'.id ∈ items.map (·.id) ∧
        c'.isTaken (Call.stateAfter c'.id (before.map (·.1))) = true) := by
  intro before c' answer' after parts
  rcases List.eq_nil_or_concat after with rfl | ⟨after, last, rfl⟩
  · obtain ⟨rfl, same⟩ := List.append_inj' parts rfl
    obtain ⟨rfl, rfl⟩ := Prod.mk.inj (List.singleton_inj.1 same)
    exact accepted
  · rw [List.concat_eq_append, ← List.cons_append, ← List.append_assoc] at parts
    exact follows.answers before c' answer' after (List.append_inj' parts rfl).1

theorem call (c : Call) : Follows items (s.call c).1 (log ++ [(c, (s.call c).2)]) := by
  have known := follows.states c.id
  rcases s.call_cases c with ⟨old, s', taken, moved, moves⟩ | ⟨refused, unmoved⟩
  · rw [moves.before] at known
    split at known
    next planned =>
      obtain rfl := Option.some.inj known
      rw [moved]
      refine ⟨fun id => ?_, follows.answers_concat (by simp [planned, taken]), ?_⟩
      · rw [moves.after, follows.states, List.map_append, List.map_singleton,
          Call.stateAfter_concat]
        by_cases own : id = c.id
        · simp [own, planned, taken]
        · simp [own, Ne.symm own]
      · have left := moves.unfinished
        have counted := follows.unfinished
        have spent := Call.spends taken
        simp only [List.countP_append, List.countP_singleton, Bool.and_true]
        omega
    next => cases known
  · have idle (planned : c.id ∈ items.map (·.id)) :
        c.isTaken (Call.stateAfter c.id (log.map (·.1))) = false :=
      refused _ (known.trans (if_pos planned))
    rw [unmoved]
    refine ⟨fun id => ?_, follows.answers_concat (by simpa using idle), ?_⟩
    · rw [follows.states, List.map_append, List.map_singleton, Call.stateAfter_concat]
      by_cases own : c.id = id
      · subst own
        split
        next planned => simp [idle planned]
        next => rfl
      · simp [own]
    · simpa using follows.unfinished

end Follows

theorem follows_calls (items : List WorkItem) (calls : List Call) :
    let out := (ofPlan items).calls calls
    out.2.map (·.1) = calls ∧ Follows items out.1 out.2 := by
  induction calls using List.reverseRecOn with
  | nil => exact ⟨rfl, follows_ofPlan items⟩
  | append_singleton earlier c ih =>
    obtain ⟨made, follows⟩ := ih
    simp only [calls_concat]
    exact ⟨by simp [made], follows.call c⟩

/-- Whatever is planned and whatever calls are made, in any order, they decide what the session says
and answers. A test that is not planned has no state, and no call on it is taken. A planned one has
the verdict of the first call that finishes it, and until then it is started once a call has started
it. A start is taken only as the first call on its test, a finish as the first finish, and each
finish that is taken leaves one test less without a verdict. -/
theorem calls_decide (items : List WorkItem) (calls : List Call) :
    let planned (id : TestId) : Prop := ∃ item ∈ items, item.id = id
    let (session, log) := (ofPlan items).calls calls
    log.map (·.1) = calls ∧
      (∀ id, ¬ planned id →
        session.state? id = none ∧ ∀ entry ∈ log, entry.1.id = id → entry.2 = false) ∧
      (∀ id, planned id → session.state? id = some
        (match Call.firstVerdict? id calls with
          | some .passed => .passed
          | some (.failed _) => .failed
          | none => if .start id ∈ calls then .started else .queued)) ∧
      (∀ before call answer after, log = before ++ (call, answer) :: after → planned call.id →
        (answer = true ↔ match call with
          | .start id => ∀ earlier ∈ before.map (·.1), earlier.id ≠ id
          | .finish id _ => ∀ outcome, .finish id outcome ∉ before.map (·.1))) ∧
      session.unfinished + log.countP (fun entry => entry.1.isFinish && entry.2) =
        items.length := by
  intro planned
  obtain ⟨made, follows⟩ := follows_calls items calls
  generalize (ofPlan items).calls calls = out at made follows
  obtain ⟨session, log⟩ := out
  have known (id : TestId) : id ∈ items.map (·.id) ↔ planned id := List.mem_map
  refine ⟨made, fun id foreign => ⟨?_, ?_⟩, fun id here => ?_, ?_, follows.unfinished⟩
  · rw [follows.states, if_neg (mt (known id).1 foreign)]
  · rintro ⟨c, answer⟩ member rfl
    obtain ⟨before, after, parts⟩ := List.append_of_mem member
    have accepted := follows.answers before c answer after parts
    simpa [known, foreign] using accepted
  · rw [follows.states, if_pos ((known id).2 here), made, Call.stateAfter]
    cases Call.firstVerdict? id calls with
    | some outcome => cases outcome <;> rfl
    | none => rfl
  · intro before c answer after parts here
    rw [follows.answers before c answer after parts, known, and_iff_right here]
    cases c with
    | start id => simp only [Call.isTaken, beq_iff_eq, Call.stateAfter_eq_queued_iff, Call.id]
    | finish id outcome =>
      simp only [Call.isTaken, Call.isTerminal_stateAfter, Option.not_isSome,
        Option.isNone_iff_eq_none, Call.firstVerdict?_eq_none_iff, Call.id]

-- The verdict comes before the start, and neither the start nor a second verdict is taken.
example :
    ((ofPlan [⟨⟨"test:/a.pl:x"⟩, "u", "x", .ofString "/a.pl"⟩]).calls [
      .finish ⟨"test:/a.pl:x"⟩ .passed, .start ⟨"test:/a.pl:x"⟩,
      .finish ⟨"test:/a.pl:x"⟩ (.failed "late")]).2.map (·.2) = [true, false, false] := by decide

end Session

end TestExplorer
