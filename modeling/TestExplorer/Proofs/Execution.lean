import TestExplorer.Controller.Discovery

set_option autoImplicit false

namespace TestExplorer

attribute [simp] stateStep hostStep logged

namespace Activity

variable {α β σ : Type}

-- A step with the state in which it is taken.
inductive Step (σ : Type) where
  | state (action : StateAction) (before : Engine × σ)
  | host (action : HostAction) (before : Engine × σ)

def steps (h : Host σ) : Activity α → Engine × σ → List (Step σ)
  | done _, _ => []
  | state action next, (e, w) =>
    .state action (e, w) :: steps h (next (e.perform action).1) ((e.perform action).2, w)
  | host action next, s => .host action s :: steps h (next (h action s).1) (h action s).2

variable (h : Host σ) (s : Engine × σ)

@[simp] theorem exec_done (a : α) : (done a).exec h s = (a, s) := rfl

@[simp] theorem exec_pure (a : α) : (pure a : Activity α).exec h s = (a, s) := rfl

@[simp] theorem exec_state (action : StateAction) (next : action.Answer → Activity α) :
    (state action next).exec h s =
      (next (s.1.perform action).1).exec h ((s.1.perform action).2, s.2) := rfl

@[simp] theorem exec_host (action : HostAction) (next : action.Answer → Activity α) :
    (host action next).exec h s = (next (h action s).1).exec h (h action s).2 := rfl

@[simp] theorem exec_bind (x : Activity α) (f : α → Activity β) :
    (x >>= f).exec h s = (f (x.exec h s).1).exec h (x.exec h s).2 := by
  change (x.bind f).exec h s = _
  induction x generalizing s with
  | done a => rfl
  | state action next ih => exact ih _ _
  | host action next ih => exact ih _ _

@[simp] theorem exec_map (g : α → β) (x : Activity α) :
    (g <$> x).exec h s = (g (x.exec h s).1, (x.exec h s).2) :=
  exec_bind h s x fun a => pure (g a)

@[simp] theorem steps_done (a : α) : (done a).steps h s = [] := rfl

@[simp] theorem steps_pure (a : α) : (pure a : Activity α).steps h s = [] := rfl

@[simp] theorem steps_state (action : StateAction) (next : action.Answer → Activity α) :
    (state action next).steps h s =
      .state action s :: (next (s.1.perform action).1).steps h ((s.1.perform action).2, s.2) := rfl

@[simp] theorem steps_host (action : HostAction) (next : action.Answer → Activity α) :
    (host action next).steps h s =
      .host action s :: (next (h action s).1).steps h (h action s).2 := rfl

@[simp] theorem steps_bind (x : Activity α) (f : α → Activity β) :
    (x >>= f).steps h s = x.steps h s ++ (f (x.exec h s).1).steps h (x.exec h s).2 := by
  change (x.bind f).steps h s = _
  induction x generalizing s with
  | done a => rfl
  | state action next ih => exact congrArg _ (ih _ _)
  | host action next ih => exact congrArg _ (ih _ _)

@[simp] theorem steps_map (g : α → β) (x : Activity α) :
    (g <$> x).steps h s = x.steps h s := by
  have both := steps_bind h s x fun a => pure (g a)
  simp only [steps_pure, List.append_nil] at both
  exact both

@[simp] theorem exec_discard (x : Activity α) : (discard x).exec h s = ((), (x.exec h s).2) :=
  exec_map h s _ x

@[simp] theorem steps_discard (x : Activity α) : (discard x).steps h s = x.steps h s :=
  steps_map h s _ x

variable {γ : Type}

/-- No state step of the activity changes what `view` shows. -/
def Keeps (view : Engine → γ) : Activity α → Prop
  | done _ => True
  | state action next => (∀ e, view (e.perform action).2 = view e) ∧ ∀ a, (next a).Keeps view
  | host _ next => ∀ a, (next a).Keeps view

variable {view : Engine → γ}

theorem Keeps.bind {x : Activity α} {f : α → Activity β} (first : x.Keeps view)
    (second : ∀ a, (f a).Keeps view) : (x >>= f).Keeps view := by
  change (x.bind f).Keeps view
  induction x with
  | done a => exact second a
  | state action next ih => exact ⟨first.1, fun a => ih a (first.2 a)⟩
  | host action next ih => exact fun a => ih a (first a)

theorem Keeps.map {x : Activity α} (kept : x.Keeps view) (g : α → β) : (g <$> x).Keeps view :=
  kept.bind fun _ => trivial

theorem Keeps.comp {δ : Type} {x : Activity α} (kept : x.Keeps view) (g : γ → δ) :
    x.Keeps fun e => g (view e) := by
  induction x with
  | done a => trivial
  | state action next ih =>
    exact ⟨fun e => congrArg g (kept.1 e), fun a => ih a (kept.2 a)⟩
  | host action next ih => exact fun a => ih a (kept a)

theorem keeps_stateStep {action : StateAction} (kept : ∀ e, view (e.perform action).2 = view e) :
    (stateStep action).Keeps view :=
  ⟨kept, fun _ => trivial⟩

theorem Keeps.holding {x : Activity α} (kept : x.Keeps view) (lock : Lock) :
    (holding lock x).Keeps view :=
  Keeps.bind (keeps_stateStep fun _ => rfl) fun _ => kept.bind fun _ =>
    Keeps.bind (keeps_stateStep fun _ => rfl) fun _ => trivial

theorem Keeps.exec {x : Activity α} (kept : x.Keeps view)
    (quiet : ∀ action s, view (h action s).2.1 = view s.1) :
    view (x.exec h s).2.1 = view s.1 := by
  induction x generalizing s with
  | done a => rfl
  | state action next ih => exact (ih _ _ (kept.2 _)).trans (kept.1 s.1)
  | host action next ih => exact (ih _ _ (kept _)).trans (quiet action s)

theorem exec_world {world : σ → γ} (x : Activity α)
    (quiet : ∀ action s, world (h action s).2.2 = world s.2) :
    world (x.exec h s).2.2 = world s.2 := by
  induction x generalizing s with
  | done a => rfl
  | state action next ih => exact ih _ _
  | host action next ih => exact (ih _ _).trans (quiet action s)

def Uses (allowed : HostAction → Prop) : Activity α → Prop
  | done _ => True
  | state _ next => ∀ a, (next a).Uses allowed
  | host action next => allowed action ∧ ∀ a, (next a).Uses allowed

variable {allowed : HostAction → Prop}

theorem Uses.bind {x : Activity α} {f : α → Activity β} (first : x.Uses allowed)
    (second : ∀ a, (f a).Uses allowed) : (x >>= f).Uses allowed := by
  change (x.bind f).Uses allowed
  induction x with
  | done a => exact second a
  | state action next ih => exact fun a => ih a (first a)
  | host action next ih => exact ⟨first.1, fun a => ih a (first.2 a)⟩

theorem Uses.map {x : Activity α} (used : x.Uses allowed) (g : α → β) : (g <$> x).Uses allowed :=
  used.bind fun _ => trivial

theorem Uses.exec_world {x : Activity α} (used : x.Uses allowed) {world : σ → γ}
    (quiet : ∀ action s, allowed action → world (h action s).2.2 = world s.2) :
    world (x.exec h s).2.2 = world s.2 := by
  induction x generalizing s with
  | done a => rfl
  | state action next ih => exact ih _ _ (used _)
  | host action next ih => exact (ih _ _ (used.2 _)).trans (quiet action s used.1)

/-- Whatever the answers, every step of the activity is of an allowed kind. -/
def Within (states : StateAction → Prop) (hosts : HostAction → Prop) : Activity α → Prop
  | done _ => True
  | state action next => states action ∧ ∀ a, (next a).Within states hosts
  | host action next => hosts action ∧ ∀ a, (next a).Within states hosts

variable {states : StateAction → Prop} {hosts : HostAction → Prop}

theorem Within.bind {x : Activity α} {f : α → Activity β} (first : x.Within states hosts)
    (second : ∀ a, (f a).Within states hosts) : (x >>= f).Within states hosts := by
  change (x.bind f).Within states hosts
  induction x with
  | done a => exact second a
  | state action next ih => exact ⟨first.1, fun a => ih a (first.2 a)⟩
  | host action next ih => exact ⟨first.1, fun a => ih a (first.2 a)⟩

theorem Within.map {x : Activity α} (within : x.Within states hosts) (g : α → β) :
    (g <$> x).Within states hosts :=
  within.bind fun _ => trivial

theorem within_stateStep {action : StateAction} (allowed : states action) :
    (stateStep action).Within states hosts :=
  ⟨allowed, fun _ => trivial⟩

theorem Within.holding {x : Activity α} (within : x.Within states hosts) (lock : Lock)
    (acquired : states (.acquire lock)) (released : states (.release lock)) :
    (holding lock x).Within states hosts :=
  (within_stateStep acquired).bind fun _ => within.bind fun _ =>
    (within_stateStep released).bind fun _ => trivial

theorem Within.uses {x : Activity α} (within : x.Within states hosts) : x.Uses hosts := by
  induction x with
  | done a => trivial
  | state action next ih => exact fun a => ih a (within.2 a)
  | host action next ih => exact ⟨within.1, fun a => ih a (within.2 a)⟩

theorem Within.keeps {x : Activity α} (within : x.Within states hosts)
    (kept : ∀ action, states action → ∀ e, view (e.perform action).2 = view e) :
    x.Keeps view := by
  induction x with
  | done a => trivial
  | state action next ih => exact ⟨kept action within.1, fun a => ih a (within.2 a)⟩
  | host action next ih => exact fun a => ih a (within.2 a)

end Activity

section

variable {α σ : Type} (h : Activity.Host σ) (s : Engine × σ)

@[simp] theorem exec_holding (lock : Lock) (body : Activity α) :
    (holding lock body).exec h s = body.exec h s := by
  simp [holding, Engine.perform]

@[simp] theorem steps_holding (lock : Lock) (body : Activity α) :
    (holding lock body).steps h s =
      .state (.acquire lock) s ::
        (body.steps h s ++ [.state (.release lock) (body.exec h s).2]) := by
  simp [holding, Engine.perform]

end

end TestExplorer
