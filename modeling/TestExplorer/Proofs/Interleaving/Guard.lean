import TestExplorer.Proofs.Interleaving.Phase

set_option autoImplicit false

namespace TestExplorer

namespace Phase

theorem holdsLock_of_isActive {p : Phase} (active : p.isActive = true) : p.holdsLock = true := by
  cases p <;> first | rfl | cases active

variable {own : Option Flag} {p : Phase} {act : Act}

theorem Permits.holder_cases (permitted : p.Permits own act) :
    ((∀ {ι : Type} (i : ι) (holder : Lock → Option ι), act.holder i holder .runs = holder .runs) ∧
        (p.after act).holdsLock = p.holdsLock) ∨
      (p = outside ∧ act = .state (.acquire .runs) ()) ∨
      (p = closing ∧ act = .state (.release .runs) ()) := by
  cases permitted with
  | @documents p action answer about idle =>
    refine .inl ⟨fun i holder => ?_, by rw [after_documents p about]⟩
    cases action with
    | acquire lock => cases lock <;> first | rfl | exact about.elim
    | release lock => cases lock <;> first | rfl | exact about.elim
    | _ => rfl
  | host answer quiet idle => exact .inl ⟨fun _ _ => rfl, by rw [after_host p quiet]⟩
  | enter => exact .inr (.inl ⟨rfl, rfl⟩)
  | leave => exact .inr (.inr ⟨rfl, rfl⟩)
  | look raised own => cases raised <;> exact .inl ⟨fun _ _ => rfl, rfl⟩
  | _ => exact .inl ⟨fun _ _ => rfl, rfl⟩

theorem Permits.active_cases (permitted : p.Permits own act) :
    ((∀ e, (act.engine e).active = e.active) ∧ (p.after act).isActive = p.isActive) ∨
      (∃ flag, own = some flag ∧ p = entered ∧ act = .state (.setActive (some flag)) ()) ∨
      (p = active ∧ act = .state (.setActive none) ()) := by
  cases permitted with
  | documents answer about idle =>
    exact .inl ⟨fun e => (Engine.perform_aboutDocuments about e).1, by rw [after_documents p about]⟩
  | host answer quiet idle => exact .inl ⟨fun _ => rfl, by rw [after_host p quiet]⟩
  | cancel answer =>
    refine .inl ⟨fun e => ?_, rfl⟩
    simp only [Act.engine, Engine.perform]
    split <;> rfl
  | publish own => exact .inr (.inl ⟨_, own, rfl, rfl⟩)
  | withdraw => exact .inr (.inr ⟨rfl, rfl⟩)
  | look raised own => cases raised <;> exact .inl ⟨fun _ => rfl, rfl⟩
  | _ => exact .inl ⟨fun _ => rfl, rfl⟩

end Phase

namespace Activity

variable {α : Type}

def isDone : Activity α → Bool
  | done _ => true
  | state _ _ => false
  | host _ _ => false

theorem isDone_iff {x : Activity α} : x.isDone = true ↔ ∃ a, x = done a := by
  cases x <;> simp [isDone]

end Activity

namespace Scene

instance {ι : Type} (s : Scene ι) (i : ι) : Decidable (∃ reply, s.rest i = .done reply) :=
  decidable_of_iff ((s.rest i).isDone = true) Activity.isDone_iff

variable {ι : Type} {s : Scene ι} {i : ι} {answers : Answers} {act : Act}
  {rest : Activity Task.Reply}

theorem next_cases (taken : s.next i answers = some (act, rest)) :
    (∃ action next, s.rest i = .state action next ∧ s.isFree action = true ∧
        act = .state action (s.engine.perform action).1 ∧
        rest = next (s.engine.perform action).1) ∨
      (∃ invocation next, s.rest i = .host (.launch invocation) next ∧ s.inFlight i = false ∧
        act = .began invocation ∧ rest = s.rest i) ∨
      (∃ action next, s.rest i = .host action next ∧
        (action.invocation? = none ∨ s.inFlight i = true) ∧
        act = .host action (answers action) ∧ rest = next (answers action)) := by
  unfold next at taken
  cases remaining : s.rest i with
  | done reply => simp [remaining] at taken
  | state action next =>
    simp only [remaining, Option.ite_none_right_eq_some, Option.some.injEq, Prod.mk.injEq] at taken
    obtain ⟨free, rfl, rfl⟩ := taken
    exact .inl ⟨action, next, rfl, free, rfl, rfl⟩
  | host action next =>
    simp only [remaining] at taken
    cases action with
    | launch invocation =>
      cases flight : s.inFlight i with
      | false =>
        simp only [HostAction.invocation?, flight, Option.some.injEq, Prod.mk.injEq] at taken
        obtain ⟨rfl, rfl⟩ := taken
        exact .inr (.inl ⟨invocation, next, rfl, rfl, rfl, rfl⟩)
      | true =>
        simp only [HostAction.invocation?, flight, Option.some.injEq, Prod.mk.injEq] at taken
        obtain ⟨rfl, rfl⟩ := taken
        exact .inr (.inr ⟨_, next, rfl, .inr rfl, rfl, rfl⟩)
    | _ =>
      simp only [HostAction.invocation?, Option.some.injEq, Prod.mk.injEq] at taken
      obtain ⟨rfl, rfl⟩ := taken
      exact .inr (.inr ⟨_, next, rfl, .inl rfl, rfl, rfl⟩)

theorem next_answer {action : StateAction} {answer : action.Answer}
    (taken : s.next i answers = some (.state action answer, rest)) :
    s.isFree action = true ∧ answer = (s.engine.perform action).1 := by
  rcases next_cases taken with ⟨action', next, -, free, same, -⟩ | ⟨_, _, -, -, same, -⟩ |
    ⟨_, _, -, -, same, -⟩
  · cases same
    exact ⟨free, rfl⟩
  · cases same
  · cases same

theorem keeps_step {γ : Type} {view : Engine → γ} (kept : (s.rest i).Keeps view)
    (taken : s.next i answers = some (act, rest)) :
    rest.Keeps view ∧ view (act.engine s.engine) = view s.engine := by
  rcases next_cases taken with ⟨action, next, here, -, rfl, rfl⟩ |
    ⟨invocation, next, here, -, rfl, rfl⟩ | ⟨action, next, here, -, rfl, rfl⟩
  · rw [here] at kept
    exact ⟨kept.2 _, kept.1 _⟩
  · exact ⟨kept, rfl⟩
  · rw [here] at kept
    exact ⟨kept _, rfl⟩

variable [DecidableEq ι]

def phaseIn (i : ι) (log : List (ι × Act)) : Phase :=
  log.foldl (fun p (j, act) => if j = i then p.after act else p) .outside

def phase (s : Scene ι) (i : ι) : Phase :=
  phaseIn i s.log

theorem phaseIn_append (i j : ι) (log : List (ι × Act)) (act : Act) :
    phaseIn i (log ++ [(j, act)]) =
      if j = i then (phaseIn i log).after act else phaseIn i log := by
  simp [phaseIn]

@[simp] theorem phase_take_self : (s.take i act rest).phase i = (s.phase i).after act := by
  simp [phase, phaseIn_append]

theorem phase_take_of_ne {j : ι} (other : j ≠ i) : (s.take i act rest).phase j = s.phase j := by
  simp [phase, phaseIn_append, other.symm]

theorem rest_take {P : ι → Activity Task.Reply → Prop} (mine : P i rest)
    (others : ∀ j, j ≠ i → P j (s.rest j)) (j : ι) : P j ((s.take i act rest).rest j) := by
  by_cases same : j = i
  · subst same
    simpa using mine
  · simpa [Function.update_of_ne same] using others j same

-- What requests say of a lock stays true of its holder: only the holder gives the lock back, and only
-- a free one is taken.
theorem guarded_of_step {lock : Lock} {holds : ι → Prop} (holds' : ι → Prop)
    (before : ∀ j, holds j ↔ s.holder lock = some j)
    (others : ∀ j, j ≠ i → (holds' j ↔ holds j))
    (step : (act.holder i s.holder lock = s.holder lock ∧ (holds' i ↔ holds i)) ∨
      (act = .state (.acquire lock) () ∧ s.holder lock = none ∧ holds' i) ∨
      (act = .state (.release lock) () ∧ holds i ∧ ¬ holds' i)) (j : ι) :
    holds' j ↔ (s.take i act rest).holder lock = some j := by
  by_cases mine : j = i
  · subst mine
    rcases step with ⟨kept, same⟩ | ⟨rfl, -, takes⟩ | ⟨rfl, -, leaves⟩
    · rw [take_holder, kept, ← before, same]
    · simp [takes, Act.holder]
    · simp [leaves, Act.holder]
  · rw [others j mine, before]
    rcases step with ⟨kept, -⟩ | ⟨rfl, free, -⟩ | ⟨rfl, held, -⟩
    · rw [take_holder, kept]
    · simp [free, Act.holder, Ne.symm mine]
    · simp [(before i).1 held, Act.holder, Ne.symm mine]

-- What turns and raised flags keep holds at the end of every schedule.
theorem play_induction {P : Scene ι → Prop}
    (raise : ∀ s flag, P s → P { s with engine := s.engine.raise flag })
    (take : ∀ s i answers act rest, P s → s.next i answers = some (act, rest) →
      P (s.take i act rest))
    (begins : P s) (moves : List (Move ι)) : P (s.play moves) := by
  induction moves generalizing s with
  | nil => exact begins
  | cons move moves ih =>
    refine ih ?_
    cases move with
    | turn i answers =>
      unfold after
      dsimp only
      split
      next act rest taken => exact take s i answers act rest begins taken
      next => exact begins
    | raise flag => exact raise s flag begins

theorem after_cancelActive {next : Bool → Activity Task.Reply}
    (here : s.rest i = .state .cancelActive next) (answers : Answers) :
    s.after (.turn i answers) =
      s.take i (.state .cancelActive s.engine.active.isSome) (next s.engine.active.isSome) := by
  have answer : (s.engine.perform .cancelActive).1 = s.engine.active.isSome := by
    simp only [Engine.perform]
    cases s.engine.active <;> rfl
  simp [after, Scene.next, here, isFree, answer]

/-- Every request keeps to its phases, and the phases say who holds the lock of runs, whose flag is
active and who has a launch in flight. -/
structure Orderly (tasks : ι → Task) (s : Scene ι) : Prop where
  disciplined : ∀ i, (s.rest i).Disciplined (tasks i).flag? Phase.Over (s.phase i)
  guarded : ∀ i, (s.phase i).holdsLock = true ↔ s.holder .runs = some i
  slot : ∀ flag, s.engine.active = some flag ↔
    ∃ i, (tasks i).flag? = some flag ∧ (s.phase i).isActive = true
  flight : ∀ i, s.inFlight i = true ↔ s.phase i = .launching

namespace Orderly

variable {tasks : ι → Task} (orderly : s.Orderly tasks)

include orderly

theorem alone {j : ι} (inside : (s.phase i).holdsLock = true)
    (inside' : (s.phase j).holdsLock = true) : i = j := by
  have holds := (orderly.guarded i).1 inside
  rw [(orderly.guarded j).1 inside'] at holds
  exact (Option.some.inj holds).symm

theorem step (taken : s.next i answers = some (act, rest)) :
    (s.phase i).Permits (tasks i).flag? act ∧
      rest.Disciplined (tasks i).flag? Phase.Over ((s.phase i).after act) := by
  have disciplined := orderly.disciplined i
  rcases next_cases taken with ⟨action, next, here, -, rfl, rfl⟩ |
    ⟨invocation, next, here, landed, rfl, rfl⟩ | ⟨action, next, here, flying, rfl, rfl⟩
  · rw [here] at disciplined
    exact disciplined _
  · have idle : s.phase i ≠ .launching := fun launching => by
      simp [(orderly.flight i).2 launching] at landed
    rw [here] at disciplined ⊢
    have checked : s.phase i = .checked := disciplined.1.resolve_right idle
    rw [checked]
    exact ⟨.begin invocation, .inr rfl, disciplined.2⟩
  · rw [here] at disciplined
    refine ⟨?_, disciplined.2 _⟩
    cases action with
    | launch invocation =>
      have launching := (orderly.flight i).1 (flying.resolve_left (by simp [HostAction.invocation?]))
      rw [launching]
      exact .finish invocation _
    | _ => exact .host _ rfl disciplined.1

theorem guarded_take (permitted : (s.phase i).Permits (tasks i).flag? act)
    (free : ∀ lock, act = .state (.acquire lock) () → s.holder lock = none) (j : ι) :
    ((s.take i act rest).phase j).holdsLock = true ↔
      (s.take i act rest).holder .runs = some j := by
  refine guarded_of_step (fun j => ((s.take i act rest).phase j).holdsLock = true) orderly.guarded
    (fun j other => by rw [phase_take_of_ne other]) ?_ j
  rcases permitted.holder_cases with ⟨kept, inside⟩ | ⟨outside, rfl⟩ | ⟨closing, rfl⟩
  · exact .inl ⟨kept i s.holder, by rw [phase_take_self, inside]⟩
  · refine .inr (.inl ⟨rfl, free .runs rfl, ?_⟩)
    simp [Phase.after, Act.leadsTo, Phase.holdsLock]
  · refine .inr (.inr ⟨rfl, by rw [closing]; rfl, ?_⟩)
    simp [Phase.after, Act.leadsTo, Phase.holdsLock]

theorem beside_isActive {j : ι} (other : j ≠ i) (inside : (s.phase i).holdsLock = true) :
    (s.phase j).isActive = false := by
  by_contra active
  have active : (s.phase j).isActive = true := by simpa using active
  exact other (orderly.alone (Phase.holdsLock_of_isActive active) inside)

-- Flags are published and withdrawn by the holder of the lock, with nobody else active.
theorem slot_take (permitted : (s.phase i).Permits (tasks i).flag? act) (flag : Flag) :
    (s.take i act rest).engine.active = some flag ↔
      ∃ j, (tasks j).flag? = some flag ∧ ((s.take i act rest).phase j).isActive = true := by
  rcases permitted.active_cases with ⟨kept, active⟩ | ⟨mine, own, entered, rfl⟩ | ⟨active, rfl⟩
  · have kept : (s.take i act rest).engine.active = s.engine.active := kept s.engine
    have same (j : ι) : ((s.take i act rest).phase j).isActive = (s.phase j).isActive := by
      by_cases same : j = i
      · simp [same, active]
      · rw [phase_take_of_ne same]
    simp only [kept, same, orderly.slot flag]
  · have set : (s.take i (.state (.setActive (some mine)) ()) rest).engine.active = some mine := rfl
    rw [set, Option.some.injEq]
    constructor
    · rintro rfl
      exact ⟨i, own, by simp [Phase.after, Act.leadsTo, Phase.isActive]⟩
    · rintro ⟨j, owns, active⟩
      by_cases same : j = i
      · rw [same, own] at owns
        exact Option.some.inj owns
      · rw [phase_take_of_ne same, orderly.beside_isActive same (by rw [entered]; rfl)] at active
        cases active
  · have set : (s.take i (.state (.setActive none) ()) rest).engine.active = none := rfl
    rw [set]
    constructor
    · rintro ⟨⟩
    · rintro ⟨j, owns, inside⟩
      by_cases same : j = i
      · simp [same, Phase.after, Act.leadsTo, Phase.isActive] at inside
      · rw [phase_take_of_ne same, orderly.beside_isActive same (by rw [active]; rfl)] at inside
        cases inside

theorem take (taken : s.next i answers = some (act, rest)) :
    (s.take i act rest).Orderly tasks := by
  obtain ⟨permitted, disciplined⟩ := orderly.step taken
  constructor
  case disciplined =>
    intro j
    by_cases same : j = i
    · subst same
      simpa using disciplined
    · simpa [phase_take_of_ne same, Function.update_of_ne same] using orderly.disciplined j
  case guarded =>
    refine orderly.guarded_take permitted ?_
    rintro lock rfl
    simpa [isFree] using (next_answer taken).1
  case slot => exact orderly.slot_take permitted
  case flight =>
    intro j
    by_cases same : j = i
    · simp [same, permitted.launching_iff]
    · simpa [phase_take_of_ne same, Function.update_of_ne same] using orderly.flight j

theorem play (moves : List (Move ι)) : (s.play moves).Orderly tasks :=
  play_induction (fun _ _ orderly => { orderly with })
    (fun _ _ _ _ _ orderly taken => orderly.take taken) orderly moves

theorem inFlight_unique {j : ι} (flies : s.inFlight i = true) (flies' : s.inFlight j = true) :
    i = j :=
  orderly.alone (by rw [(orderly.flight i).1 flies]; rfl) (by rw [(orderly.flight j).1 flies']; rfl)

end Orderly

theorem orderly_start (c : Controller) (tasks : ι → Task) {e : Engine} (idle : e.active = none) :
    (start c tasks e).Orderly tasks where
  disciplined i := (tasks i).disciplined c
  guarded i := ⟨nofun, nofun⟩
  slot flag := by simp [start, idle, phase, phaseIn, Phase.isActive]
  flight i := ⟨nofun, nofun⟩

end Scene

end TestExplorer
