import TestExplorer.Proofs.Interleaving.Guard
import TestExplorer.Proofs.Interleaving.Stage
import TestExplorer.Proofs.Standing

set_option autoImplicit false

namespace TestExplorer

namespace Act

def write? : Act → Option TreeWrite
  | state action _ => TreeWrite.of? action
  | _ => none

def listed : Act → List Path
  | host (.enumerate _) (.ok files) => files
  | host (.enumerate _) (.error _) => []
  | _ => []

def entered : Act → List Path
  | state (.insert document) _ => [document.path]
  | _ => []

def reading? : Act → Option (Path × String)
  | host (.read path) (.ok source) => some (path, source)
  | host (.read _) (.error _) => none
  | _ => none

theorem entered_of_write {act : Act} {document : Document}
    (written : act.write? = some (.insert document)) : act.entered = [document.path] := by
  cases act with
  | state action answer =>
    cases action with
    | insert document =>
      cases written
      rfl
    | _ => cases written
  | _ => cases written

end Act

/-! ## Stages and locks -/

@[simp] theorem Discovering.cleared_eq_away (d : Discovering) : d.cleared = .away ↔ d = .away := by
  cases d <;> simp [cleared]

@[simp] theorem Discovering.lists_eq_away (d : Discovering) (files : List Path) :
    d.lists files = .away ↔ d = .away := by
  cases d <;> simp [lists]

@[simp] theorem Discovering.enters_eq_away (d : Discovering) (path : Path) :
    d.enters path = .away ↔ d = .away := by
  cases d <;> simp [enters]

namespace Stage

variable {received : Texts} {own : Path → Prop} {st : Stage} {act : Act}

def Allows (received : Texts) (own : Path → Prop) (st : Stage) : Act → Prop
  | .state action _ => st.Permits received own action
  | _ => True

-- The lock of runs has phases of its own.
def holds (st : Stage) : Lock → Prop
  | .discovery => st.discovery ≠ .away
  | .tree => st.tree ≠ .away
  | .runs => False

theorem Enters.held {path : Path} (enters : st.Enters own path) : st.tree ≠ .away := by
  cases enters with
  | inPlace evicted => simp [evicted]
  | listed _ _ held => simp [held]

theorem Allows.holds_cases (allowed : st.Allows received own act) {lock : Lock} (used : lock ≠ .runs) :
    ((∀ {ι : Type} (i : ι) (holder : Lock → Option ι), act.holder i holder lock = holder lock) ∧
        ((st.after act).holds lock ↔ st.holds lock)) ∨
      (act = .state (.acquire lock) () ∧ (st.after act).holds lock) ∨
      (act = .state (.release lock) () ∧ st.holds lock ∧ ¬ (st.after act).holds lock) := by
  cases act with
  | began invocation => exact .inl ⟨fun _ _ => rfl, Iff.rfl⟩
  | host action answer =>
    refine .inl ⟨fun _ _ => rfl, ?_⟩
    cases action with
    | enumerate root => cases answer <;> cases lock <;> simp [after, afterHost, holds]
    | read path => cases answer <;> cases lock <;> simp [after, afterHost, holds]
    | _ => exact Iff.rfl
  | state action answer =>
    cases action with
    | acquire taken =>
      cases taken <;> cases lock <;>
        simp_all [after, afterState, holds, Act.holder, Allows, Permits]
    | release left =>
      cases left <;> cases lock <;>
        simp_all [after, afterState, holds, Act.holder, Allows, Permits]
    | clearTree => cases lock <;> simp_all [after, afterState, holds, Act.holder]
    | takeBuffers =>
      obtain ⟨listed, entered, filling⟩ := allowed
      cases lock <;> simp_all [after, afterState, holds, Act.holder]
    | evict path => cases lock <;> simp_all [after, afterState, holds, Act.holder, Allows, Permits]
    | insert document =>
      have held := allowed.1.held
      cases lock <;> simp_all [after, afterState, holds, Act.holder]
    | _ => exact .inl ⟨fun _ _ => rfl, Iff.rfl⟩

-- Filling begins with the clearing of the tree, and goes on from list to list and from entry to
-- entry.
theorem filling_after {listed entered : List Path}
    (filling : (st.after act).discovery = .filling listed entered) :
    (act = .state .clearTree () ∧ listed = [] ∧ entered = []) ∨
      ∃ listed' entered', st.discovery = .filling listed' entered' ∧
        listed = listed' ++ act.listed ∧ entered = entered' ++ act.entered := by
  have kept (same : (st.after act).discovery = st.discovery) (lists : act.listed = [])
      (enters : act.entered = []) : ∃ listed' entered', st.discovery = .filling listed' entered' ∧
        listed = listed' ++ act.listed ∧ entered = entered' ++ act.entered :=
    ⟨listed, entered, same ▸ filling, by simp [lists], by simp [enters]⟩
  cases act with
  | began invocation => exact .inr (kept rfl rfl rfl)
  | host action answer =>
    cases action with
    | enumerate root =>
      cases answer with
      | ok files =>
        cases before : st.discovery <;>
          simp_all [after, afterHost, Discovering.lists, Act.listed, Act.entered]
      | error error => exact .inr (kept rfl rfl rfl)
    | read path => cases answer <;> exact .inr (kept rfl rfl rfl)
    | _ => exact .inr (kept rfl rfl rfl)
  | state action answer =>
    cases action with
    | acquire lock => cases lock <;> first | exact .inr (kept rfl rfl rfl) | cases filling
    | release lock => cases lock <;> first | exact .inr (kept rfl rfl rfl) | cases filling
    | takeBuffers => cases filling
    | clearTree =>
      cases before : st.discovery <;>
        simp_all [after, afterState, Discovering.cleared, Act.listed, Act.entered]
    | insert document =>
      cases before : st.discovery <;>
        simp_all [after, afterState, Discovering.enters, Act.listed, Act.entered]
    | _ => exact .inr (kept rfl rfl rfl)

theorem evicted_after {path : Path} (quiet : act.write? = none)
    (evicted : (st.after act).tree = .evicted path) : st.tree = .evicted path := by
  cases act with
  | began invocation => exact evicted
  | host action answer =>
    cases action with
    | enumerate root => cases answer <;> exact evicted
    | read path => cases answer <;> exact evicted
    | _ => exact evicted
  | state action answer =>
    cases action with
    | acquire lock => cases lock <;> first | exact evicted | cases evicted
    | release lock => cases lock <;> first | exact evicted | cases evicted
    | evict path => cases quiet
    | insert document => cases quiet
    | _ => exact evicted

theorem read_after {b : Path × String} (known : (st.after act).read = some b) :
    act.reading? = some b ∨ st.read = some b := by
  cases act with
  | began invocation => exact .inr known
  | host action answer =>
    cases action with
    | enumerate root => cases answer <;> exact .inr known
    | read path =>
      cases answer with
      | ok source => exact .inl known
      | error cause => exact .inr known
    | _ => exact .inr known
  | state action answer =>
    cases action with
    | acquire lock => cases lock <;> exact .inr known
    | release lock => cases lock <;> exact .inr known
    | _ => exact .inr known

theorem Allows.write_cases {write : TreeWrite} (allowed : st.Allows received own act)
    (written : act.write? = some write) :
    (write = .clear ∧ act = .state .clearTree () ∧ st.tree = .held) ∨
      (∃ path, write = .evict path ∧ act = .state (.evict path) () ∧ st.tree = .held) ∨
      ∃ document answer, write = .insert document ∧ act = .state (.insert document) answer ∧
        st.Enters own document.path ∧ st.Knows received document := by
  cases act with
  | state action answer =>
    cases action with
    | clearTree => exact .inl ⟨(Option.some.inj written).symm, rfl, allowed⟩
    | evict path => exact .inr (.inl ⟨path, (Option.some.inj written).symm, rfl, allowed⟩)
    | insert document =>
      exact .inr (.inr ⟨document, answer, (Option.some.inj written).symm, rfl, allowed⟩)
    | _ => cases written
  | _ => cases written

theorem Allows.knows {document : Document} (allowed : st.Allows received own act)
    (written : act.write? = some (.insert document)) : st.Knows received document := by
  rcases allowed.write_cases written with ⟨⟨⟩, -⟩ | ⟨path, ⟨⟩, -⟩ | ⟨_, _, ⟨⟩, -, -, knows⟩
  exact knows

theorem Allows.holds_tree {write : TreeWrite} (allowed : st.Allows received own act)
    (written : act.write? = some write) : st.holds .tree := by
  rcases allowed.write_cases written with ⟨-, -, held⟩ | ⟨path, -, -, held⟩ |
    ⟨document, answer, -, -, enters, -⟩
  · simp [holds, held]
  · simp [holds, held]
  · exact enters.held

end Stage

namespace Stage

/-- A text that has been received for a document has been received under each of its paths. -/
def Shared (received : Texts) : Prop :=
  ∀ p q old source, received p old → received q source → p.Same q → received p source

variable {received : Texts} {e : Engine}

theorem sound_perform (texts : ∀ b ∈ e.buffers, received b.1 b.2) (action : StateAction) :
    Sound received action (e.perform action).1 := by
  cases action with
  | takeBuffers => exact texts
  | _ => trivial

theorem Permits.buffers {st : Stage} {action : StateAction} {own : Path → Prop}
    (permitted : st.Permits received own action) (shared : Shared received)
    (texts : ∀ b ∈ e.buffers, received b.1 b.2) :
    ∀ b ∈ (e.perform action).2.buffers, received b.1 b.2 := by
  cases action with
  | keepBuffer path source =>
    intro b member
    rcases Engine.of_mem_withBuffer member with old | ⟨text, named | ⟨same, old, held, named⟩⟩
    · exact texts b old
    · rw [text, named]
      exact permitted
    · rw [text]
      exact shared b.1 path old.2 source (named ▸ texts old held) permitted same
  | dropBuffer path => exact fun b member => texts b (List.mem_of_mem_filter member)
  | takeBuffers => nofun
  | cancelActive =>
    simp only [Engine.perform]
    split <;> exact texts
  | _ => exact texts

end Stage

namespace Scene

variable {ι : Type} [DecidableEq ι]

def stageIn (i : ι) (log : List (ι × Act)) : Stage :=
  log.foldl (fun st (j, act) => if j = i then st.after act else st) {}

def stage (s : Scene ι) (i : ι) : Stage :=
  stageIn i s.log

def writes (log : List (ι × Act)) : List (ι × TreeWrite) :=
  log.filterMap fun (i, act) => act.write?.map (i, ·)

def listings (i : ι) (log : List (ι × Act)) : List Path :=
  log.flatMap fun (j, act) => if j = i then act.listed else []

def readings (log : List (ι × Act)) : List (Path × String) :=
  log.filterMap (·.2.reading?)

variable {s : Scene ι} {i : ι} {answers : Answers} {act : Act} {rest : Activity Task.Reply}

theorem stageIn_append (i j : ι) (log : List (ι × Act)) (act : Act) :
    stageIn i (log ++ [(j, act)]) = if j = i then (stageIn i log).after act else stageIn i log := by
  simp [stageIn]

@[simp] theorem stage_take_self : (s.take i act rest).stage i = (s.stage i).after act := by
  simp [stage, stageIn_append]

theorem stage_take_of_ne {j : ι} (other : j ≠ i) : (s.take i act rest).stage j = s.stage j := by
  simp [stage, stageIn_append, other.symm]

theorem writes_take :
    writes (s.take i act rest).log = writes s.log ++ (act.write?.map (i, ·)).toList := by
  cases written : act.write? <;> simp [writes, written]

theorem readings_take :
    readings (s.take i act rest).log = readings s.log ++ act.reading?.toList := by
  cases read : act.reading? <;> simp [readings, read]

theorem listings_take (j : ι) : listings j (s.take i act rest).log =
    listings j s.log ++ if i = j then act.listed else [] := by
  simp [listings]

/-- An edit has brought the text along, for the path or for another spelling of a path that an edit
has come for. -/
def Sent (tasks : ι → Task) : Stage.Texts := fun path source =>
  (∃ i known, tasks i = .edited known source ∧ known.Same path) ∧
    ∃ i old, tasks i = .edited path old

omit [DecidableEq ι] in
theorem shared_sent (tasks : ι → Task) : Stage.Shared (Sent tasks) := by
  rintro p q old source ⟨-, spelled⟩ ⟨⟨i, known, task, here⟩, -⟩ same
  exact ⟨⟨i, known, task, here.trans same.symm⟩, spelled⟩

def Told (tasks : ι → Task) (s : Scene ι) (path : Path) (source : String) : Prop :=
  (path, source) ∈ readings s.log ∨ Sent tasks path source

variable {tasks : ι → Task}

theorem Told.take {path : Path} {source : String} (told : s.Told tasks path source) :
    (s.take i act rest).Told tasks path source := by
  rcases told with read | sent
  · rw [Told, readings_take]
    exact .inl (List.mem_append_left _ read)
  · exact .inr sent

/-- Every request keeps to its stages, and the stages say who holds the tree, who the lock of
discovery, and what has been read. -/
structure Staging (tasks : ι → Task) (s : Scene ι) : Prop where
  staged : ∀ i, (s.rest i).Staged (Sent tasks) (tasks i).Reconciles
    (fun _ st => st.At .away .away) (s.stage i)
  guarded : ∀ lock, lock ≠ .runs → ∀ i, (s.stage i).holds lock ↔ s.holder lock = some i
  buffers : ∀ b ∈ s.engine.buffers, Sent tasks b.1 b.2
  listed : ∀ i listed entered, (s.stage i).discovery = .filling listed entered →
    listed.Sublist (listings i s.log)
  read : ∀ i b, (s.stage i).read = some b → b ∈ readings s.log
  texts : ∀ i document, (i, .insert document) ∈ writes s.log →
    ∃ source, document = Document.scan document.path source ∧ s.Told tasks document.path source

namespace Staging

variable (staging : s.Staging tasks)

include staging

theorem alone (lock : Lock) (used : lock ≠ .runs) {j : ι} (holds : (s.stage i).holds lock)
    (holds' : (s.stage j).holds lock) : i = j := by
  have mine := (staging.guarded lock used i).1 holds
  rw [(staging.guarded lock used j).1 holds'] at mine
  exact (Option.some.inj mine).symm

theorem step (taken : s.next i answers = some (act, rest)) :
    (s.stage i).Allows (Sent tasks) (tasks i).Reconciles act ∧
      rest.Staged (Sent tasks) (tasks i).Reconciles (fun _ st => st.At .away .away) ((s.stage i).after act) := by
  have staged := staging.staged i
  rcases next_cases taken with ⟨action, next, here, -, rfl, rfl⟩ |
    ⟨invocation, next, here, -, rfl, rfl⟩ | ⟨action, next, here, -, rfl, rfl⟩
  · rw [here] at staged
    exact ⟨staged.1, staged.2 _ (Stage.sound_perform staging.buffers action)⟩
  · exact ⟨trivial, staged⟩
  · rw [here] at staged
    exact ⟨trivial, staged _⟩

theorem guarded_take (allowed : (s.stage i).Allows (Sent tasks) (tasks i).Reconciles act)
    (free : ∀ lock, act = .state (.acquire lock) () → s.holder lock = none) {lock : Lock}
    (used : lock ≠ .runs) (j : ι) :
    ((s.take i act rest).stage j).holds lock ↔ (s.take i act rest).holder lock = some j := by
  refine guarded_of_step (fun j => ((s.take i act rest).stage j).holds lock)
    (staging.guarded lock used) (fun j other => by rw [stage_take_of_ne other]) ?_ j
  rw [stage_take_self]
  rcases allowed.holds_cases used with ⟨kept, same⟩ | ⟨rfl, takes⟩ | ⟨rfl, held, leaves⟩
  · exact .inl ⟨kept i s.holder, same⟩
  · exact .inr (.inl ⟨rfl, free lock rfl, takes⟩)
  · exact .inr (.inr ⟨rfl, held, leaves⟩)

theorem listed_take {j : ι} {listed entered : List Path}
    (filling : ((s.take i act rest).stage j).discovery = .filling listed entered) :
    listed.Sublist (listings j (s.take i act rest).log) := by
  rw [listings_take]
  by_cases mine : j = i
  · subst mine
    rw [stage_take_self] at filling
    rw [if_pos rfl]
    rcases Stage.filling_after filling with ⟨-, rfl, -⟩ | ⟨before, taken, filled, rfl, -⟩
    · exact List.nil_sublist _
    · exact (staging.listed j before taken filled).append_right act.listed
  · rw [stage_take_of_ne mine] at filling
    exact (staging.listed j listed entered filling).trans (List.sublist_append_left _ _)

theorem read_take {j : ι} {b : Path × String}
    (known : ((s.take i act rest).stage j).read = some b) :
    b ∈ readings (s.take i act rest).log := by
  rw [readings_take]
  by_cases mine : j = i
  · subst mine
    rw [stage_take_self] at known
    rcases Stage.read_after known with now | before
    · simp [now]
    · exact List.mem_append_left _ (staging.read j b before)
  · rw [stage_take_of_ne mine] at known
    exact List.mem_append_left _ (staging.read j b known)

theorem texts_take (allowed : (s.stage i).Allows (Sent tasks) (tasks i).Reconciles act) {j : ι}
    {document : Document} (member : (j, .insert document) ∈ writes (s.take i act rest).log) :
    ∃ source, document = Document.scan document.path source ∧
      (s.take i act rest).Told tasks document.path source := by
  rw [writes_take] at member
  rcases List.mem_append.1 member with before | now
  · obtain ⟨source, scanned, told⟩ := staging.texts j document before
    exact ⟨source, scanned, told.take⟩
  · obtain ⟨rfl, written⟩ : i = j ∧ act.write? = some (.insert document) := by
      simpa [and_comm] using now
    obtain ⟨source, scanned, known⟩ := allowed.knows written
    refine ⟨source, scanned, Told.take ?_⟩
    exact known.imp_left (staging.read i _)

theorem take (taken : s.next i answers = some (act, rest)) :
    (s.take i act rest).Staging tasks := by
  obtain ⟨allowed, staged⟩ := staging.step taken
  constructor
  case staged =>
    intro j
    by_cases mine : j = i
    · subst mine
      simpa using staged
    · simpa [stage_take_of_ne mine, Function.update_of_ne mine] using staging.staged j
  case guarded =>
    intro lock used j
    refine staging.guarded_take allowed ?_ used j
    rintro lock rfl
    simpa [isFree] using (next_answer taken).1
  case buffers =>
    cases act with
    | state action answer => exact allowed.buffers (shared_sent tasks) staging.buffers
    | _ => exact staging.buffers
  case listed => exact fun j listed entered filling => staging.listed_take filling
  case read => exact fun j b known => staging.read_take known
  case texts => exact fun j document member => staging.texts_take allowed member

end Staging

theorem staging_start (c : Controller) (tasks : ι → Task) {e : Engine} (none : e.buffers = []) :
    (start c tasks e).Staging tasks where
  staged i := (tasks i).staged c fun path source task =>
    ⟨⟨i, path, task, rfl⟩, i, source, task⟩
  guarded lock used i := by
    cases lock with
    | runs => exact absurd rfl used
    | _ => simp [stage, stageIn, start, Stage.holds]
  buffers b member := by simp [start, none] at member
  listed i listed entered filling := by simp [stage, stageIn, start] at filling
  read i b known := by simp [stage, stageIn, start] at known
  texts i document member := by simp [writes, start] at member

end Scene

end TestExplorer
