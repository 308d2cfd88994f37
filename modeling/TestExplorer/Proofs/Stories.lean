import TestExplorer.Controller.Interleaving
import TestExplorer.Proofs.Execution

set_option autoImplicit false

namespace TestExplorer

namespace Act

def ended? : Act → Option (Invocation × LaunchResult)
  | host (.launch invocation) result => some (invocation, result)
  | _ => none

def ended (acts : List Act) : List (Invocation × LaunchResult) :=
  acts.filterMap ended?

@[simp] theorem ended_nil : ended [] = [] := rfl

@[simp] theorem ended_append (before later : List Act) :
    ended (before ++ later) = ended before ++ ended later :=
  List.filterMap_append

@[simp] theorem ended_state (action : StateAction) (answer : action.Answer) (acts : List Act) :
    ended (state action answer :: acts) = ended acts := rfl

@[simp] theorem ended_launch (invocation : Invocation) (result : LaunchResult) (acts : List Act) :
    ended (host (.launch invocation) result :: acts) = (invocation, result) :: ended acts := rfl

@[simp] theorem ended_notify (event : RunEvent) (answer : Unit) (acts : List Act) :
    ended (host (.notify event) answer :: acts) = ended acts := rfl

@[simp] theorem ended_note (notices : List Notice) (answer : Unit) (acts : List Act) :
    ended (host (.note notices) answer :: acts) = ended acts := rfl

def events (acts : List Act) : List RunEvent :=
  acts.filterMap event?

@[simp] theorem events_nil : events [] = [] := rfl

@[simp] theorem events_append (before later : List Act) :
    events (before ++ later) = events before ++ events later :=
  List.filterMap_append

@[simp] theorem events_state (action : StateAction) (answer : action.Answer) (acts : List Act) :
    events (state action answer :: acts) = events acts := rfl

@[simp] theorem events_launch (invocation : Invocation) (result : LaunchResult) (acts : List Act) :
    events (host (.launch invocation) result :: acts) = events acts := rfl

@[simp] theorem events_notify (event : RunEvent) (answer : Unit) (acts : List Act) :
    events (host (.notify event) answer :: acts) = event :: events acts := rfl

@[simp] theorem events_note (notices : List Notice) (answer : Unit) (acts : List Act) :
    events (host (.note notices) answer :: acts) = events acts := rfl

/-- Nothing is launched and nothing is reported. -/
structure Quiet (acts : List Act) : Prop where
  ended : ended acts = []
  events : events acts = []

end Act

namespace Activity

variable {α β σ : Type}

/-- With these acts the activity can have come to `a`. Where a launch begins is not told. -/
def Tells : Activity α → List Act → α → Prop
  | done answer, acts, a => acts = [] ∧ answer = a
  | state action next, acts, a => ∃ answer later, acts = .state action answer :: later ∧
      (next answer).Tells later a
  | host action next, acts, a => ∃ answer later, acts = .host action answer :: later ∧
      (next answer).Tells later a

@[simp] theorem tells_done (answer : α) (acts : List Act) (a : α) :
    (done answer).Tells acts a ↔ acts = [] ∧ answer = a := Iff.rfl

@[simp] theorem tells_pure (answer : α) (acts : List Act) (a : α) :
    (pure answer : Activity α).Tells acts a ↔ acts = [] ∧ answer = a := Iff.rfl

theorem tells_bind (x : Activity α) (f : α → Activity β) (acts : List Act) (b : β) :
    (x >>= f).Tells acts b ↔
      ∃ first second a, acts = first ++ second ∧ x.Tells first a ∧ (f a).Tells second b := by
  change (x.bind f).Tells acts b ↔ _
  induction x generalizing acts with
  | done answer =>
    constructor
    · exact fun told => ⟨[], acts, answer, rfl, ⟨rfl, rfl⟩, told⟩
    · rintro ⟨first, second, a, rfl, ⟨rfl, rfl⟩, told⟩
      exact told
  | state action next ih =>
    constructor
    · rintro ⟨answer, later, rfl, told⟩
      obtain ⟨first, second, a, rfl, begun, told⟩ := (ih answer later).1 told
      exact ⟨_ :: first, second, a, rfl, ⟨answer, first, rfl, begun⟩, told⟩
    · rintro ⟨_, second, a, rfl, ⟨answer, first, rfl, begun⟩, told⟩
      exact ⟨answer, first ++ second, rfl, (ih answer _).2 ⟨first, second, a, rfl, begun, told⟩⟩
  | host action next ih =>
    constructor
    · rintro ⟨answer, later, rfl, told⟩
      obtain ⟨first, second, a, rfl, begun, told⟩ := (ih answer later).1 told
      exact ⟨_ :: first, second, a, rfl, ⟨answer, first, rfl, begun⟩, told⟩
    · rintro ⟨_, second, a, rfl, ⟨answer, first, rfl, begun⟩, told⟩
      exact ⟨answer, first ++ second, rfl, (ih answer _).2 ⟨first, second, a, rfl, begun, told⟩⟩

theorem tells_map (g : α → β) (x : Activity α) (acts : List Act) (b : β) :
    (g <$> x).Tells acts b ↔ ∃ a, x.Tells acts a ∧ g a = b := by
  refine (tells_bind x (fun a => pure (g a)) acts b).trans ?_
  constructor
  · rintro ⟨first, second, a, rfl, told, rfl, same⟩
    exact ⟨a, by rwa [List.append_nil], same⟩
  · rintro ⟨a, told, same⟩
    exact ⟨acts, [], a, (List.append_nil _).symm, told, rfl, same⟩

theorem tells_stateStep (action : StateAction) (acts : List Act) (answer : action.Answer) :
    (stateStep action).Tells acts answer ↔ acts = [.state action answer] := by
  constructor
  · rintro ⟨_, _, rfl, rfl, rfl⟩
    rfl
  · rintro rfl
    exact ⟨answer, [], rfl, rfl, rfl⟩

theorem tells_hostStep (action : HostAction) (acts : List Act) (answer : action.Answer) :
    (hostStep action).Tells acts answer ↔ acts = [.host action answer] := by
  constructor
  · rintro ⟨_, _, rfl, rfl, rfl⟩
    rfl
  · rintro rfl
    exact ⟨answer, [], rfl, rfl, rfl⟩

theorem tells_holding (lock : Lock) (body : Activity α) (acts : List Act) (a : α) :
    (holding lock body).Tells acts a ↔ ∃ inside, acts =
      .state (.acquire lock) () :: (inside ++ [.state (.release lock) ()]) ∧
        body.Tells inside a := by
  simp only [holding, tells_bind, tells_pure]
  constructor
  · rintro ⟨_, _, _, rfl, acquired, inside, _, _, rfl, told, _, _, _, rfl, released, rfl, rfl⟩
    obtain rfl := (tells_stateStep (.acquire lock) _ _).1 acquired
    obtain rfl := (tells_stateStep (.release lock) _ _).1 released
    exact ⟨inside, by simp, told⟩
  · rintro ⟨inside, rfl, told⟩
    have acquired := (tells_stateStep (.acquire lock) _ ()).2 rfl
    have released := (tells_stateStep (.release lock) _ ()).2 rfl
    exact ⟨_, _, (), rfl, acquired, inside, _, a, rfl, told, _, [], (), (List.append_nil _).symm,
      released, rfl, rfl⟩

theorem Within.quiet {hosts : HostAction → Prop} {states : StateAction → Prop} {x : Activity α}
    (within : x.Within states hosts) (launches : ∀ invocation, ¬ hosts (.launch invocation))
    (reports : ∀ event, ¬ hosts (.notify event)) {acts : List Act} {a : α}
    (told : x.Tells acts a) : Act.Quiet acts := by
  induction x generalizing acts with
  | done answer =>
    obtain ⟨rfl, rfl⟩ := told
    exact ⟨rfl, rfl⟩
  | state action next ih =>
    obtain ⟨answer, later, rfl, told⟩ := told
    obtain ⟨ended, events⟩ := ih answer (within.2 answer) told
    exact ⟨ended, events⟩
  | host action next ih =>
    obtain ⟨answer, later, rfl, told⟩ := told
    obtain ⟨ended, events⟩ := ih answer (within.2 answer) told
    cases action with
    | launch invocation => exact absurd within.1 (launches invocation)
    | notify event => exact absurd within.1 (reports event)
    | _ => exact ⟨ended, events⟩

def Step.told (h : Host σ) : Step σ → Act
  | .state action s => .state action (s.1.perform action).1
  | .host action s => .host action (h action s).1

theorem exec_tells (h : Host σ) (x : Activity α) (s : Engine × σ) :
    x.Tells ((x.steps h s).map (Step.told h)) (x.exec h s).1 := by
  induction x generalizing s with
  | done a => exact ⟨rfl, rfl⟩
  | state action next ih => exact ⟨_, _, rfl, ih _ _⟩
  | host action next ih => exact ⟨_, _, rfl, ih _ _⟩

end Activity

end TestExplorer
