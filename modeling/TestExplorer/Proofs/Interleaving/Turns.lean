import TestExplorer.Proofs.History
import TestExplorer.Proofs.Interleaving.Record

set_option autoImplicit false

namespace TestExplorer

namespace Controller

theorem keeps_turn (scope : Scope) (options : RunOptions) (flag : Flag) :
    (turn scope options flag).Keeps Engine.core := by
  refine Activity.Keeps.holding ?_ .runs
  refine ⟨fun _ => rfl, fun _ => (keeps_runScope scope options flag).bind fun report => ?_⟩
  exact ⟨fun _ => rfl, fun _ => trivial⟩

end Controller

/-! ## Activities that find the tree empty -/

theorem Tree.find_empty (id : String) : ({} : Tree).find? id = none := by
  unfold find?
  split
  next => rfl
  next => split <;> rfl

theorem Tree.plan_empty (scope : Scope) (options : RunOptions) :
    ({} : Tree).plan scope options = [] := by
  have none : ({} : Tree).expand scope = [] := by
    cases scope with
    | many ids =>
      have items : (ids.flatMap fun id => (({} : Tree).itemsOf id).getD []) = [] :=
        List.flatMap_eq_nil_iff.2 fun id _ => by rw [itemsOf, find_empty]; rfl
      rw [expand, items]
      rfl
    | _ => rfl
  unfold plan
  split
  next => exact none
  next => rw [none]; rfl

namespace Activity

variable {α β : Type}

/-- Where the controller is disposed and the tree is empty, the activity leaves the tree empty and
launches nothing, and it ends as `ends` says. -/
def Harmless (ends : α → Prop) : Activity α → Prop
  | done a => ends a
  | state action next => ∀ e : Engine, e.disposed = true → e.tree = {} →
      (e.perform action).2.tree = {} ∧ (next (e.perform action).1).Harmless ends
  | host action next => action.invocation? = none ∧ ∀ answer, (next answer).Harmless ends

theorem Harmless.bind {middle : α → Prop} {ends : β → Prop} {x : Activity α} {f : α → Activity β}
    (first : x.Harmless middle) (second : ∀ a, middle a → (f a).Harmless ends) :
    (x >>= f).Harmless ends := by
  change (x.bind f).Harmless ends
  induction x with
  | done a => exact second a first
  | state action next ih =>
    exact fun e disposed empty =>
      ⟨(first e disposed empty).1, ih _ (first e disposed empty).2⟩
  | host action next ih => exact ⟨first.1, fun a => ih a (first.2 a)⟩

/-- Whatever it is answered, the activity is harmless as long as it has not read the tree. -/
def Unplanned : Activity α → Prop
  | done _ => True
  | state action next => (state action next).Harmless (fun _ => True) ∧
      (action ≠ .readTree → ∀ answer, (next answer).Unplanned)
  | host action next => (host action next).Harmless (fun _ => True) ∧
      ∀ answer, (next answer).Unplanned

theorem Unplanned.harmless {x : Activity α} (unplanned : x.Unplanned) :
    x.Harmless fun _ => True := by
  cases x with
  | done a => trivial
  | state action next => exact unplanned.1
  | host action next => exact unplanned.1

theorem Unplanned.map {x : Activity α} (unplanned : x.Unplanned) (g : α → β) :
    (g <$> x).Unplanned := by
  have harmless : (g <$> x).Harmless fun _ => True :=
    unplanned.harmless.bind fun _ _ => trivial
  induction x with
  | done a => trivial
  | state action next ih =>
    refine ⟨harmless, fun other answer => ?_⟩
    have later := unplanned.2 other answer
    exact ih answer later (later.harmless.bind fun _ _ => trivial)
  | host action next ih =>
    refine ⟨harmless, fun answer => ?_⟩
    have later := unplanned.2 answer
    exact ih answer later (later.harmless.bind fun _ _ => trivial)

end Activity

section

open Activity

theorem harmless_readTree :
    (holding .tree (stateStep .readTree)).Harmless fun tree : Tree => tree = {} :=
  fun _ _ empty => ⟨empty, fun _ _ empty => ⟨empty, fun _ _ empty' => ⟨empty', empty⟩⟩⟩

theorem harmless_runScope (scope : Scope) (options : RunOptions) (flag : Flag) :
    (runScope scope options flag).Harmless fun _ => True := by
  have nothing : (planned scope options).Harmless (· = []) := by
    refine harmless_readTree.bind ?_
    rintro tree rfl
    exact ⟨rfl, fun _ => Tree.plan_empty scope options⟩
  refine nothing.bind ?_
  rintro items rfl
  exact ⟨rfl, fun _ => ⟨rfl, fun _ => trivial⟩⟩

theorem harmless_turn (scope : Scope) (options : RunOptions) (flag : Flag) :
    (Controller.turn scope options flag).Harmless fun _ => True := by
  have inside : (do
      stateStep (.setActive (some flag))
      let report ← runScope scope options flag
      stateStep (.setActive none)
      (pure (.ok report) : Activity (Except EngineError Report))).Harmless fun _ => True := by
    refine fun _ _ empty => ⟨empty, (harmless_runScope scope options flag).bind fun report _ => ?_⟩
    exact fun _ _ empty => ⟨empty, trivial⟩
  exact fun _ _ empty => ⟨empty, inside.bind fun _ _ => fun _ _ empty => ⟨empty, trivial⟩⟩

-- The lock of runs, the active slot, the lock of the tree: none of the answers up to there tells
-- anything, so what is harmless in a disposed scene is what is left in any.
theorem unplanned_turn (scope : Scope) (options : RunOptions) (flag : Flag) :
    (Controller.turn scope options flag).Unplanned := by
  let e : Engine := { disposed := true }
  have arriving := harmless_turn scope options flag
  have entered := (arriving e rfl rfl).2
  have active := (entered e rfl rfl).2
  have reading := (active e rfl rfl).2
  exact ⟨arriving, fun _ _ => ⟨entered, fun _ _ => ⟨active, fun _ _ =>
    ⟨reading, fun other => absurd rfl other⟩⟩⟩⟩

end

/-! ## Activities that come to their turn -/

theorem Phase.after_ne_outside {p : Phase} (inside : p ≠ .outside) (act : Act) :
    p.after act ≠ .outside := by
  unfold after Act.leadsTo
  split <;> first | exact inside | exact fun same => by cases same

namespace Activity

variable {α β : Type}

/-- From wherever it asks for the lock of runs, the activity leaves the tree alone, and it is
harmless until it has read its plan. -/
def TameInTurn : Activity α → Prop
  | done _ => True
  | state action next =>
    (action = .acquire .runs → (state action next).Keeps Engine.tree ∧
      (state action next).Unplanned) ∧ ∀ answer, (next answer).TameInTurn
  | host _ next => ∀ answer, (next answer).TameInTurn

theorem TameInTurn.map {x : Activity α} (tame : x.TameInTurn) (g : α → β) :
    (g <$> x).TameInTurn := by
  induction x with
  | done a => trivial
  | state action next ih =>
    refine ⟨fun asks => ?_, fun answer => ih answer (tame.2 answer)⟩
    obtain ⟨keeps, unplanned⟩ := tame.1 asks
    exact ⟨keeps.map g, unplanned.map g⟩
  | host action next ih => exact fun answer => ih answer (tame answer)

theorem AboutDocuments.tame {x : Activity α} {f : α → Activity β} (about : x.AboutDocuments)
    (second : ∀ a, (f a).TameInTurn) : (x >>= f).TameInTurn := by
  change (x.bind f).TameInTurn
  induction x with
  | done a => exact second a
  | state action next ih =>
    refine ⟨?_, fun answer => ih answer (about.2 answer)⟩
    rintro rfl
    exact about.1.elim
  | host action next ih => exact fun answer => ih answer (about.2 answer)

-- The lock of runs is asked for outside only.
theorem Disciplined.tameInTurn {own : Option Flag} {ends : α → Phase → Prop} {p : Phase}
    {x : Activity α} (disciplined : x.Disciplined own ends p) (inside : p ≠ .outside) :
    x.TameInTurn := by
  induction x generalizing p with
  | done a => trivial
  | state action next ih =>
    refine ⟨?_, fun answer => ih answer (disciplined answer).2 (Phase.after_ne_outside inside _)⟩
    rintro rfl
    cases (disciplined ()).1 with
    | documents answer about idle => exact about.elim
    | enter => exact absurd rfl inside
  | host action next ih =>
    exact fun answer => ih answer (disciplined.2 answer) (Phase.after_ne_outside inside _)

end Activity

theorem tameInTurn_turn (scope : Scope) (options : RunOptions) (flag : Flag) :
    (Controller.turn scope options flag).TameInTurn := by
  have keeps : (Controller.turn scope options flag).Keeps Engine.tree :=
    (Controller.keeps_turn scope options flag).comp (·.1)
  have disciplined := disciplined_turn scope options flag
  exact ⟨fun _ => ⟨keeps, unplanned_turn scope options flag⟩, fun answer =>
    (disciplined answer).2.tameInTurn fun same => by cases same⟩

theorem Task.tameInTurn (c : Controller) (task : Task) : (task.activity c).TameInTurn := by
  cases task with
  | run scope options flag =>
    refine Activity.TameInTurn.map ?_ _
    refine ⟨by rintro ⟨⟩, fun disposed => ?_⟩
    cases disposed with
    | true => trivial
    | false =>
      exact (aboutDocuments_ensureDiscovered c).tame fun _ => tameInTurn_turn scope options flag
  | cancel => exact ⟨by rintro ⟨⟩, fun _ => trivial⟩
  | resolve id => exact (aboutDocuments_resolve c id).tame fun _ => trivial
  | reload => exact (aboutDocuments_reload c).tame fun _ => trivial
  | changed path => exact (aboutDocuments_documentChanged c path).tame fun _ => trivial
  | edited path source => exact (aboutDocuments_documentEdited c path source).tame fun _ => trivial
  | dispose =>
    have cleared : (holding .tree (stateStep .clearTree)).AboutDocuments :=
      (Activity.within_stateStep trivial).holding .tree trivial trivial
    refine Activity.TameInTurn.map ?_ _
    refine ⟨by rintro ⟨⟩, fun disposed => ?_⟩
    cases disposed with
    | true => trivial
    | false => exact ⟨by rintro ⟨⟩, fun _ => cleared.tame fun _ => trivial⟩

namespace Activity

def asksForTurn {α : Type} : Activity α → Bool
  | state (.acquire .runs) _ => true
  | _ => false

theorem asksForTurn_iff {α : Type} {x : Activity α} :
    x.asksForTurn = true ↔ ∃ next, x = state (.acquire .runs) next := by
  constructor
  · intro asks
    unfold asksForTurn at asks
    split at asks
    next next => exact ⟨next, rfl⟩
    next => cases asks
  · rintro ⟨next, rfl⟩
    rfl

end Activity

def Act.readsTree : Act → Bool
  | state .readTree _ => true
  | _ => false

theorem Act.holder_cases {ι : Type} {i j : ι} {holder : Lock → Option ι} {act : Act}
    (holds : act.holder i holder .runs = some j) :
    (j = i ∧ act = .state (.acquire .runs) ()) ∨ holder .runs = some j := by
  cases act with
  | state action answer =>
    cases action with
    | acquire lock => cases lock <;> simp_all [Act.holder]
    | release lock => cases lock <;> simp_all [Act.holder]
    | _ => exact .inr holds
  | _ => exact .inr holds

namespace Scene

variable {ι : Type} {s : Scene ι}

def Waits (s : Scene ι) (i : ι) : Prop :=
  ∃ next, s.rest i = .state (.acquire .runs) next

instance (s : Scene ι) (i : ι) : Decidable (s.Waits i) :=
  decidable_of_iff ((s.rest i).asksForTurn = true) Activity.asksForTurn_iff

/-- A run that has the lock of runs and has not read the tree for its plan. -/
def Unplanned (s : Scene ι) (i : ι) : Prop :=
  s.holder .runs = some i ∧ ∀ entry ∈ s.log, entry.1 = i → entry.2.readsTree = false

instance [DecidableEq ι] (s : Scene ι) (i : ι) : Decidable (s.Unplanned i) :=
  inferInstanceAs (Decidable (_ ∧ _))

structure Turns (s : Scene ι) : Prop where
  tame : ∀ i, (s.rest i).TameInTurn
  inside : ∀ i, s.holder .runs = some i → (s.rest i).Keeps Engine.tree
  unplanned : ∀ i, s.Unplanned i → (s.rest i).Unplanned

theorem turns_start (c : Controller) (tasks : ι → Task) (e : Engine) : (start c tasks e).Turns where
  tame i := (tasks i).tameInTurn c
  inside _ := nofun
  unplanned _ := nofun

section

variable {i : ι} {answers : Answers} {act : Act} {rest : Activity Task.Reply}
  (taken : s.next i answers = some (act, rest))

include taken

theorem tame_step (tame : (s.rest i).TameInTurn) : rest.TameInTurn := by
  rcases next_cases taken with ⟨action, next, here, -, rfl, rfl⟩ |
    ⟨invocation, next, here, -, rfl, rfl⟩ | ⟨action, next, here, -, rfl, rfl⟩
  · rw [here] at tame
    exact tame.2 _
  · exact tame
  · rw [here] at tame
    exact tame _

theorem unplanned_step (unplanned : (s.rest i).Unplanned)
    (unread : act.readsTree = false) : rest.Unplanned := by
  rcases next_cases taken with ⟨action, next, here, -, rfl, rfl⟩ |
    ⟨invocation, next, here, -, rfl, rfl⟩ | ⟨action, next, here, -, rfl, rfl⟩
  · rw [here] at unplanned
    refine unplanned.2 ?_ _
    rintro rfl
    cases unread
  · exact unplanned
  · rw [here] at unplanned
    exact unplanned.2 _

-- Who holds the lock after a step has held it before or was waiting for it.
theorem waited_or_held {j : ι} (holds : act.holder i s.holder .runs = some j) :
    s.Waits j ∨ s.holder .runs = some j := by
  refine (Act.holder_cases holds).imp_left ?_
  rintro ⟨rfl, rfl⟩
  rcases next_cases taken with ⟨action, next, here, -, same, -⟩ | ⟨_, _, -, -, same, -⟩ |
    ⟨_, _, -, -, same, -⟩
  · cases same
    exact ⟨next, here⟩
  · cases same
  · cases same

end

namespace Turns

variable {i : ι}

theorem of_waits (turns : s.Turns) (waits : s.Waits i) :
    (s.rest i).Keeps Engine.tree ∧ (s.rest i).Unplanned := by
  obtain ⟨next, here⟩ := waits
  have tame := turns.tame i
  rw [here] at tame ⊢
  exact tame.1 rfl

variable [DecidableEq ι] (turns : s.Turns)

include turns

theorem take {answers : Answers} {act : Act} {rest : Activity Task.Reply}
    (taken : s.next i answers = some (act, rest)) : (s.take i act rest).Turns := by
  constructor
  case tame =>
    exact rest_take (P := fun _ x => x.TameInTurn) (tame_step taken (turns.tame i))
      fun j _ => turns.tame j
  case inside =>
    intro j holds
    have kept : (s.rest j).Keeps Engine.tree := by
      rcases waited_or_held taken holds with waits | held
      · exact (turns.of_waits waits).1
      · exact turns.inside j held
    by_cases same : j = i
    · subst same
      simpa using (keeps_step kept taken).1
    · simpa [Function.update_of_ne same] using kept
  case unplanned =>
    rintro j ⟨holds, unread⟩
    simp only [take_log, List.forall_mem_append, List.forall_mem_singleton] at unread
    have unplanned : (s.rest j).Unplanned := by
      rcases waited_or_held taken holds with waits | held
      · exact (turns.of_waits waits).2
      · exact turns.unplanned j ⟨held, unread.1⟩
    by_cases same : j = i
    · subst same
      simpa using unplanned_step taken unplanned (unread.2 rfl)
    · simpa [Function.update_of_ne same] using unplanned

theorem play (moves : List (Move ι)) : (s.play moves).Turns :=
  play_induction (fun _ _ turns => { turns with }) (fun _ _ _ _ _ turns taken => turns.take taken)
    turns moves

end Turns

end Scene

end TestExplorer
