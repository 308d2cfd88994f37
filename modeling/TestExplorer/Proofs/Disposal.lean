import TestExplorer.Proofs.Interleaving.Launches
import TestExplorer.Proofs.Interleaving.Turns

set_option autoImplicit false

namespace TestExplorer

namespace Task

def refusal? : Task → Option Reply
  | run _ _ _ => some (.report (.error .disposed))
  | resolve _ => some (.nodes (.error .disposed))
  | reload => some (.summary (.error .disposed))
  | changed _ => some (.found (.error .disposed))
  | edited _ _ => some (.found (.error .disposed))
  | cancel => none
  | dispose => none

theorem asks_of_refusal (c : Controller) {task : Task} {refusal : Reply}
    (refuses : task.refusal? = some refusal) :
    ∃ next, task.activity c = .state .isDisposed next ∧ next true = .done refusal := by
  cases task <;> cases refuses <;> exact ⟨_, rfl, rfl⟩

end Task

namespace Scene

variable {ι : Type} {c : Controller} {tasks : ι → Task}

def AtRest (c : Controller) (tasks : ι → Task) (s : Scene ι) (i : ι) : Prop :=
  (∃ reply, s.rest i = .done reply) ∨ s.rest i = (tasks i).activity c

def actsOf [DecidableEq ι] (i : ι) (log : List (ι × Act)) : List Act :=
  log.filterMap fun (j, act) => if j = i then some act else none

variable {s : Scene ι} {i : ι} {answers : Answers} {act : Act} {rest : Activity Task.Reply}

theorem AtRest.next (atRest : s.AtRest c tasks i) (disposed : s.engine.disposed = true)
    (taken : s.next i answers = some (act, rest)) :
    (∃ reply, rest = .done reply) ∧ (act.engine s.engine).tree = s.engine.tree := by
  rcases atRest with ⟨reply, finished⟩ | unbegun
  · simp [Scene.next, finished] at taken
  · have started {action : StateAction} {next : action.Answer → Activity Task.Reply}
        (first : (tasks i).activity c = .state action next) (free : s.isFree action = true) :
        act = .state action (s.engine.perform action).1 ∧
          rest = next (s.engine.perform action).1 := by
      simp only [Scene.next, unbegun, first, free, if_true, Option.some.injEq,
        Prod.mk.injEq] at taken
      exact ⟨taken.1.symm, taken.2.symm⟩
    cases refuses : (tasks i).refusal? with
    | some refusal =>
      obtain ⟨next, asks, refused⟩ := (tasks i).asks_of_refusal c refuses
      obtain ⟨rfl, rfl⟩ := started asks rfl
      refine ⟨⟨refusal, ?_⟩, rfl⟩
      rw [← refused]
      exact congrArg next disposed
    | none =>
      cases task : tasks i with
      | cancel =>
        obtain ⟨rfl, rfl⟩ := started (by rw [task]; rfl) rfl
        refine ⟨⟨_, rfl⟩, ?_⟩
        simp only [Act.engine, Engine.perform]
        split <;> rfl
      | dispose =>
        obtain ⟨rfl, rfl⟩ := started (by rw [task]; rfl) rfl
        refine ⟨⟨.disposed, ?_⟩, rfl⟩
        simp only [Engine.perform, disposed]
        rfl
      | _ => simp [task, Task.refusal?] at refuses

theorem next_refused {k : ι} {refusal : Task.Reply} (refuses : (tasks k).refusal? = some refusal)
    (disposed : s.engine.disposed = true) (unbegun : s.rest k = (tasks k).activity c)
    (answers : Answers) :
    s.next k answers = some (.state .isDisposed true, .done refusal) := by
  obtain ⟨next, asks, answered⟩ := (tasks k).asks_of_refusal c refuses
  have dead : (s.engine.perform .isDisposed).1 = true := disposed
  simp [Scene.next, unbegun, asks, isFree, dead, answered]

variable [DecidableEq ι]

theorem disposed_take (disposed : s.engine.disposed = true) (i : ι) (act : Act)
    (rest : Activity Task.Reply) : (s.take i act rest).engine.disposed = true := by
  cases act with
  | state action answer => exact Engine.disposed_perform disposed action
  | _ => exact disposed

theorem idle_play (s : Scene ι) (i : ι) (moves : List (Move ι))
    (idle : ∀ answers, .turn i answers ∉ moves) :
    (s.play moves).rest i = s.rest i ∧ actsOf i (s.play moves).log = actsOf i s.log := by
  induction moves generalizing s with
  | nil => exact ⟨rfl, rfl⟩
  | cons move moves ih =>
    obtain ⟨rest, acts⟩ := ih (s.after move) fun answers later => idle answers (.tail _ later)
    rw [play_cons, rest, acts]
    cases move with
    | turn j answers =>
      have other : i ≠ j := by
        rintro rfl
        exact idle answers (.head _)
      unfold after
      dsimp only
      split
      next => simp [Function.update_of_ne other, actsOf, Ne.symm other]
      next => exact ⟨rfl, rfl⟩
    | raise flag => exact ⟨rfl, rfl⟩

/-! ## Requests that come later -/

/-- A request that comes to a disposed controller asks whether it is, and is refused. -/
def Refused (c : Controller) (task : Task) (refusal : Task.Reply) (k : ι) (before : List Act)
    (s : Scene ι) : Prop :=
  (s.rest k = task.activity c ∧ actsOf k s.log = before) ∨
    (s.rest k = .done refusal ∧ actsOf k s.log = before ++ [.state .isDisposed true])

section

variable {k : ι} {refusal : Task.Reply} {before : List Act}
  (refused : s.Refused c (tasks k) refusal k before)
  (refuses : (tasks k).refusal? = some refusal) (disposed : s.engine.disposed = true)

include refused refuses disposed

theorem Refused.take (taken : s.next i answers = some (act, rest)) :
    (s.take i act rest).Refused c (tasks k) refusal k before := by
  by_cases mine : i = k
  · subst mine
    rcases refused with ⟨unbegun, acts⟩ | ⟨finished, -⟩
    · rw [next_refused refuses disposed unbegun] at taken
      cases taken
      exact .inr ⟨by simp, by simp [actsOf, ← acts]⟩
    · simp [Scene.next, finished] at taken
  · refine Or.imp ?_ ?_ refused <;>
      simp +contextual [Function.update_of_ne (Ne.symm mine), actsOf, mine]

theorem Refused.turn (answers : Answers) :
    (s.after (.turn k answers)).rest k = .done refusal := by
  rcases refused with ⟨unbegun, -⟩ | ⟨finished, -⟩
  · simp [after, next_refused refuses disposed unbegun]
  · simp [after, Scene.next, finished]

end

theorem refused_play {k : ι} {refusal : Task.Reply} (refuses : (tasks k).refusal? = some refusal)
    (disposed : s.engine.disposed = true) (unbegun : s.rest k = (tasks k).activity c)
    (later : List (Move ι)) :
    (s.play later).Refused c (tasks k) refusal k (actsOf k s.log) ∧
      ∀ answers, ((s.play later).after (.turn k answers)).rest k = .done refusal := by
  have both : (s.play later).Refused c (tasks k) refusal k (actsOf k s.log) ∧
      (s.play later).engine.disposed = true := by
    refine play_induction (P := fun s' => s'.Refused c (tasks k) refusal k (actsOf k s.log) ∧
      s'.engine.disposed = true) ?raise ?take ⟨.inl ⟨unbegun, rfl⟩, disposed⟩ later
    case raise => exact fun _ _ held => held
    case take =>
      exact fun s' i answers act rest held taken =>
        ⟨held.1.take refuses held.2 taken, disposed_take held.2 i act rest⟩
  exact ⟨both.1, both.1.turn refuses both.2⟩

end Scene

/-! ## Requests that have been let in -/

theorem harmless_dispose (g : Unit → Task.Reply) :
    (g <$> Controller.dispose).Harmless fun _ => True := by
  intro e disposed empty
  refine ⟨empty, ?_⟩
  have known : (e.perform .markDisposed).1 = true := disposed
  rw [known]
  trivial

theorem Task.harmless (c : Controller) (task : Task) :
    (task.activity c).Harmless fun _ => True := by
  cases refuses : task.refusal? with
  | some refusal =>
    obtain ⟨next, asks, refused⟩ := task.asks_of_refusal c refuses
    rw [asks]
    intro e disposed empty
    refine ⟨empty, ?_⟩
    have known : (e.perform .isDisposed).1 = true := disposed
    rw [known, refused]
    trivial
  | none =>
    cases task with
    | cancel =>
      refine fun e disposed empty => ⟨?_, trivial⟩
      simp only [Engine.perform]
      split <;> exact empty
    | dispose => exact harmless_dispose _
    | _ => simp [Task.refusal?] at refuses

namespace Scene

variable {ι : Type} {c : Controller} {tasks : ι → Task} {s : Scene ι} {i : ι} {answers : Answers}
  {act : Act} {rest : Activity Task.Reply}

theorem AtRest.harmless (atRest : s.AtRest c tasks i) : (s.rest i).Harmless fun _ => True := by
  rcases atRest with ⟨reply, finished⟩ | unbegun
  · rw [finished]
    trivial
  · rw [unbegun]
    exact (tasks i).harmless c

/-- A request that will not write the tree of a disposed controller: one at rest, a run that waits
for its turn or has it, or one that has done with the tree. -/
def LeavesTree (c : Controller) (tasks : ι → Task) (s : Scene ι) (i : ι) : Prop :=
  s.AtRest c tasks i ∨ s.Waits i ∨ s.holder .runs = some i ∨ (s.rest i).Keeps Engine.tree

theorem LeavesTree.parts (leaves : s.LeavesTree c tasks i) (turns : s.Turns) :
    s.AtRest c tasks i ∨ (s.rest i).Keeps Engine.tree := by
  rcases leaves with atRest | waits | holds | keeps
  · exact .inl atRest
  · exact .inr (turns.of_waits waits).1
  · exact .inr (turns.inside i holds)
  · exact .inr keeps

theorem leaves_step (leaves : s.AtRest c tasks i ∨ (s.rest i).Keeps Engine.tree)
    (disposed : s.engine.disposed = true) (taken : s.next i answers = some (act, rest)) :
    rest.Keeps Engine.tree ∧ (act.engine s.engine).tree = s.engine.tree := by
  rcases leaves with atRest | keeps
  · obtain ⟨⟨reply, rfl⟩, same⟩ := atRest.next disposed taken
    exact ⟨trivial, same⟩
  · exact keeps_step keeps taken

theorem harmless_step (harmless : (s.rest i).Harmless fun _ => True)
    (disposed : s.engine.disposed = true) (empty : s.engine.tree = {})
    (taken : s.next i answers = some (act, rest)) :
    (rest.Harmless fun _ => True) ∧ act.began? = none := by
  rcases next_cases taken with ⟨action, next, here, -, rfl, rfl⟩ |
    ⟨invocation, next, here, -, rfl, rfl⟩ | ⟨action, next, here, -, rfl, rfl⟩
  · rw [here] at harmless
    exact ⟨(harmless s.engine disposed empty).2, rfl⟩
  · rw [here] at harmless
    cases harmless.1
  · rw [here] at harmless
    exact ⟨harmless.2 _, rfl⟩

variable [DecidableEq ι]

structure Bare (c : Controller) (tasks : ι → Task) (s : Scene ι) : Prop where
  disposed : s.engine.disposed = true
  empty : s.engine.tree = {}
  leaves : ∀ i, s.AtRest c tasks i ∨ (s.rest i).Keeps Engine.tree

namespace Bare

variable (bare : s.Bare c tasks)

include bare

theorem take (taken : s.next i answers = some (act, rest)) : (s.take i act rest).Bare c tasks := by
  obtain ⟨keeps, same⟩ := leaves_step (bare.leaves i) bare.disposed taken
  refine ⟨disposed_take bare.disposed i act rest, same.trans bare.empty, ?_⟩
  exact rest_take (P := fun j x => ((∃ reply, x = .done reply) ∨ x = (tasks j).activity c) ∨
    x.Keeps Engine.tree) (.inr keeps) fun j _ => bare.leaves j

theorem play (later : List (Move ι)) : (s.play later).Bare c tasks :=
  play_induction (fun _ _ bare => { bare with }) (fun _ _ _ _ _ bare taken => bare.take taken)
    bare later

theorem begun_play (harmless : (s.rest i).Harmless fun _ => True) (later : List (Move ι)) :
    begun i (s.play later).log = begun i s.log := by
  have all : (s.play later).Bare c tasks ∧ ((s.play later).rest i).Harmless (fun _ => True) ∧
      begun i (s.play later).log = begun i s.log := by
    refine play_induction (P := fun s' => s'.Bare c tasks ∧ (s'.rest i).Harmless (fun _ => True) ∧
      begun i s'.log = begun i s.log) ?raise ?take ⟨bare, harmless, rfl⟩ later
    case raise => exact fun _ _ held => ⟨{ held.1 with }, held.2⟩
    case take =>
      intro s' j answers act rest ⟨bare, harmless, same⟩ taken
      refine ⟨bare.take taken, ?_⟩
      rw [take_log, begun_append, begun_singleton, same]
      by_cases mine : j = i
      · subst mine
        obtain ⟨harmless, quiet⟩ := harmless_step harmless bare.disposed bare.empty taken
        exact ⟨by simpa using harmless, by simp [quiet]⟩
      · exact ⟨by simpa [Function.update_of_ne (Ne.symm mine)] using harmless, by simp [mine]⟩
  exact all.2.2

theorem stays (turns : s.Turns) (later : List (Move ι)) :
    (s.play later).engine.tree = {} ∧
      ∀ i, s.AtRest c tasks i ∨ s.Waits i ∨ s.Unplanned i →
        begun i (s.play later).log = begun i s.log := by
  refine ⟨(bare.play later).empty, fun i quiet => bare.begun_play ?_ later⟩
  rcases quiet with atRest | waits | unplanned
  · exact atRest.harmless
  · exact (turns.of_waits waits).2.harmless
  · exact (turns.unplanned i unplanned).harmless

end Bare

end Scene

/-! ## The disposal itself -/

-- Alone on the tree, the activity ends with the empty one.
def Activity.Empties {α : Type} : Activity α → Tree → Prop
  | done _, t => t = {}
  | state action next, t =>
    ∀ answer, (next answer).Empties ((TreeWrite.of? action).toList.foldl TreeWrite.apply t)
  | host _ next, t => ∀ answer, (next answer).Empties t

namespace Scene

variable {ι : Type} [DecidableEq ι] {c : Controller} {tasks : ι → Task} {s : Scene ι} {i : ι}
  {answers : Answers} {act : Act} {rest : Activity Task.Reply}

structure Clearing (c : Controller) (tasks : ι → Task) (d : ι) (s : Scene ι) : Prop where
  disposed : s.engine.disposed = true
  others : ∀ i, i ≠ d → s.AtRest c tasks i ∨ (s.rest i).Keeps Engine.tree
  empties : (s.rest d).Empties s.engine.tree

theorem Clearing.take {d : ι} (clearing : s.Clearing c tasks d)
    (taken : s.next i answers = some (act, rest)) : (s.take i act rest).Clearing c tasks d := by
  have disposed := disposed_take clearing.disposed i act rest
  have others (mine : i ≠ d → rest.Keeps Engine.tree) (j : ι) : j ≠ d →
      (s.take i act rest).AtRest c tasks j ∨ ((s.take i act rest).rest j).Keeps Engine.tree :=
    rest_take (P := fun j x => j ≠ d →
      ((∃ reply, x = .done reply) ∨ x = (tasks j).activity c) ∨ x.Keeps Engine.tree)
      (fun other => .inr (mine other)) (fun j _ => clearing.others j) j
  by_cases mine : i = d
  · subst mine
    refine ⟨disposed, others fun other => absurd rfl other, ?_⟩
    have empties := clearing.empties
    rw [take_rest, Function.update_self, take_engine]
    rcases next_cases taken with ⟨action, next, here, -, rfl, rfl⟩ |
      ⟨invocation, next, here, -, rfl, rfl⟩ | ⟨action, next, here, -, rfl, rfl⟩
    · rw [here] at empties
      rw [Act.engine, Engine.perform_tree]
      exact empties _
    · exact empties
    · rw [here] at empties
      exact empties _
  · obtain ⟨keeps, same⟩ := leaves_step (clearing.others i mine) clearing.disposed taken
    refine ⟨disposed, others fun _ => keeps, ?_⟩
    rw [take_rest, Function.update_of_ne (Ne.symm mine), take_engine, same]
    exact clearing.empties

theorem Clearing.play {d : ι} (clearing : s.Clearing c tasks d) (later : List (Move ι)) :
    (s.play later).Clearing c tasks d :=
  play_induction (fun _ _ clearing => { clearing with })
    (fun _ _ _ _ _ clearing taken => clearing.take taken) clearing later

theorem Clearing.bare {d : ι} (clearing : s.Clearing c tasks d) {reply : Task.Reply}
    (finished : s.rest d = .done reply) : s.Bare c tasks := by
  refine ⟨clearing.disposed, ?_, fun i => ?_⟩
  · have empties := clearing.empties
    rw [finished] at empties
    exact empties
  · by_cases mine : i = d
    · exact .inl (.inl ⟨reply, by rw [mine, finished]⟩)
    · exact clearing.others i mine

theorem turn_of_dispose {d : ι} (task : tasks d = .dispose) (live : s.engine.disposed = false)
    (unbegun : s.rest d = (tasks d).activity c) (answers : Answers) :
    ∃ next, s.after (.turn d answers) =
        s.take d (.state .markDisposed false) (.state .cancelActive next) ∧
      ∀ t, (Activity.state .cancelActive next : Activity Task.Reply).Empties t := by
  obtain ⟨next, later, first, second, empties⟩ : ∃ next later,
      (tasks d).activity c = .state .markDisposed next ∧
      next false = .state .cancelActive later ∧ ∀ t, (next false).Empties t := by
    rw [task]
    exact ⟨_, _, rfl, rfl, fun t _ _ _ _ => rfl⟩
  have known : (s.engine.perform .markDisposed).1 = false := live
  have taken : s.next d answers = some (.state .markDisposed false, next false) := by
    simp [Scene.next, unbegun, first, isFree, known]
  refine ⟨later, ?_, second ▸ empties⟩
  simp only [after, taken, second]

theorem clearing_of_dispose {d : ι} (task : tasks d = .dispose) (live : s.engine.disposed = false)
    (unbegun : s.rest d = (tasks d).activity c)
    (others : ∀ i, i ≠ d → s.AtRest c tasks i ∨ (s.rest i).Keeps Engine.tree)
    (answers : Answers) : (s.after (.turn d answers)).Clearing c tasks d := by
  obtain ⟨next, moved, empties⟩ := turn_of_dispose task live unbegun answers
  rw [moved]
  refine ⟨rfl, fun i other => ?_, ?_⟩
  · simpa [AtRest, Function.update_of_ne other] using others i other
  · simpa using empties _

theorem Recorded.disposed (recorded : s.Recorded c tasks) {d : ι} (task : tasks d = .dispose)
    {reply : Task.Reply} (finished : s.rest d = .done reply) :
    reply = .disposed ∧ s.engine.disposed = true := by
  have told := recorded.faithful d [] reply (by rw [finished]; exact ⟨rfl, rfl⟩)
  rw [List.append_nil, task] at told
  obtain ⟨-, -, answered⟩ := (Activity.tells_map _ _ _ _).1 told
  obtain ⟨known, later, acts, -⟩ := told
  have member : .state .markDisposed known ∈ story d s.log := by simp [acts]
  exact ⟨answered.symm, recorded.truthful.disposals d known (mem_story.1 member).1⟩

/-- Once a disposal is over, whoever comes is refused and does nothing else; and from the moment on
when the tree is empty and nobody who was let in before can write it, the tree stays empty and
whoever is at rest, waits for the lock of runs or holds it without a plan launches nothing. The run
that is active when the disposal cancels launches at most the test for which it had found its flag
down. Where nobody let in before can write the tree, that moment is the end of the disposal. -/
theorem dispose_final {e : Engine} (idle : e.active = none) (reachable : e.tree.Reachable)
    (moves : List (Move ι)) {d : ι} (task : tasks d = .dispose) :
    let s := (start c tasks e).play moves
    (s.rest d = .done .disposed → ∀ later,
      (∀ k refusal, (tasks k).refusal? = some refusal → s.rest k = (tasks k).activity c →
        (s.play later).Refused c (tasks k) refusal k (actsOf k s.log) ∧
          ∀ answers, ((s.play later).after (.turn k answers)).rest k = .done refusal) ∧
      (s.engine.tree = {} → (∀ i, s.LeavesTree c tasks i) →
        (s.play later).engine.tree = {} ∧
        ∀ i, s.AtRest c tasks i ∨ s.Waits i ∨ s.Unplanned i →
          begun i (s.play later).log = begun i s.log)) ∧
    (∀ j flag next, (tasks j).flag? = some flag → s.engine.active = some flag →
      s.rest d = .state .cancelActive next → ∀ answers later,
        let s' := (s.after (.turn d answers)).play later
        ∃ more, begun j s'.log = begun j s.log ++ more ∧ more.length ≤ 1 ∧
          (more ≠ [] → HasLooked j flag s.log)) ∧
    (s.engine.disposed = false → s.rest d = (tasks d).activity c →
      (∀ i, i ≠ d → s.LeavesTree c tasks i) → ∀ answers moves',
        let s' := (s.after (.turn d answers)).play moves'
        s'.rest d = .done .disposed → ∀ later,
          (s'.play later).engine.tree = {} ∧
          ∀ i, s'.AtRest c tasks i ∨ s'.Waits i ∨ s'.Unplanned i →
            begun i (s'.play later).log = begun i s'.log) := by
  intro s
  have recorded : s.Recorded c tasks := (recorded_start c tasks idle reachable).play moves
  have turns : s.Turns := (turns_start c tasks e).play moves
  refine ⟨?finished, ?cancels, ?empties⟩
  case finished =>
    intro finished later
    have disposed := (recorded.disposed task finished).2
    refine ⟨fun k refusal refuses unbegun => refused_play refuses disposed unbegun later, ?_⟩
    intro empty leaves
    have bare : s.Bare c tasks := ⟨disposed, empty, fun i => (leaves i).parts turns⟩
    exact bare.stays turns later
  case cancels =>
    intro j flag next own active here answers later s'
    have other : j ≠ d := by
      rintro rfl
      rw [task] at own
      cases own
    have taken := after_cancelActive here answers
    have raised : (s.after (.turn d answers)).engine.isRaised flag = true := by
      simp [taken, Act.engine, Engine.perform, active, Engine.isRaised, Engine.raise]
    have phase : (s.after (.turn d answers)).phase j = s.phase j := by
      rw [taken, phase_take_of_ne other]
    have orderly : (s.after (.turn d answers)).Orderly tasks :=
      recorded.orderly.play [.turn d answers]
    obtain ⟨more, begins, paid⟩ := orderly.begins_at_most own raised later
    rw [phase] at paid
    refine ⟨more, ?_, recorded.owes own (Nat.le_of_add_right_le paid)⟩
    rw [begins, taken, take_log, begun_append, begun_singleton]
    simp [Act.began?]
  case empties =>
    intro live unbegun others answers moves' s' finished later
    have leaves (i : ι) (other : i ≠ d) := (others i other).parts turns
    have clearing := (clearing_of_dispose task live unbegun leaves answers).play moves'
    have turns' : s'.Turns := turns.play (.turn d answers :: moves')
    exact (clearing.bare finished).stays turns' later

-- Of three runs one is active and has just found its flag down, one waits for its turn, and one
-- comes when the disposal is over.
theorem dispose_final_refuses :
    let document : Document :=
      { path := .ofString "/ws/a.pl", units := [⟨"u", 1, [⟨"a", 2⟩, ⟨"b", 3⟩]⟩], warnings := [] }
    let tree := (document.insertInto {}).tree
    let e : Engine := { tree, discovered := true }
    let c : Controller := { roots := [], settings := {} }
    let tasks : Fin 4 → Task := fun
      | 0 => .run .all {} 0
      | 1 => .run .all {} 1
      | 2 => .dispose
      | 3 => .run .all {} 3
    let answers : Answers := fun
      | .enumerate _ => .ok []
      | .read _ => .error .notFound
      | .launch _ => .finished { exitCode := some 0, text := "" }
      | .notify _ => ()
      | .note _ => ()
    let turns (i : Fin 4) (count : Nat) := List.replicate count (Move.turn i answers)
    let before := turns 0 13 ++ turns 1 4
    let clearing := turns 2 3
    let handing := turns 0 9 ++ turns 1 1
    let s := (start c tasks e).play before
    let s' := ((s.after (.turn 2 answers)).after (.turn 2 answers)).play clearing
    let s'' := s'.play handing
    e.active = none ∧ tree.Reachable ∧ tasks 2 = .dispose ∧
      s.engine.active = some 0 ∧ s.Waits 1 ∧ s'.rest 2 = .done .disposed ∧ s''.Unplanned 1 ∧
      (∀ later, (s'.play later).Refused c (tasks 3) (.report (.error .disposed)) 3 [] ∧
        (s'.play later).engine.tree = {} ∧ (begun 0 (s'.play later).log).length ≤ 1 ∧
        begun 1 (s'.play later).log = []) ∧
      ∀ later, begun 1 (s''.play later).log = [] := by
  intro document tree e c tasks answers turns before clearing handing s s' s''
  have reachable : tree.Reachable := .insertInto document .empty
  have task : tasks 2 = .dispose := rfl
  have live : s.engine.disposed = false := by decide +kernel
  have active : s.engine.active = some 0 := by decide +kernel
  have turn : s.holder .runs = some 0 := by decide +kernel
  have active' : (s.after (.turn 2 answers)).engine.active = some 0 := by decide +kernel
  have waits : s.Waits 1 := by decide +kernel
  have waits' : s'.Waits 1 := by decide +kernel
  have ended : ∃ reply, s'.rest 2 = .done reply := by decide +kernel
  have reported : ∃ reply, s''.rest 0 = .done reply := by decide +kernel
  have unplanned : s''.Unplanned 1 := by decide +kernel
  have owed : begun 0 (s.after (.turn 2 answers)).log = [] := by decide +kernel
  have none : begun 1 s'.log = [] := by decide +kernel
  have none' : begun 1 s''.log = [] := by decide +kernel
  have idle : (∀ other, .turn 2 other ∉ before) ∧ ∀ other, .turn 3 other ∉ before := by
    simp [before, turns]
  have idle' : ∀ other, .turn 3 other ∉ clearing := by simp [clearing, turns]
  have idle'' : (∀ other, .turn 2 other ∉ handing) ∧ ∀ other, .turn 3 other ∉ handing := by
    simp [handing, turns]
  clear_value tree before clearing handing
  have unbegun : s.rest 2 = (tasks 2).activity c := (idle_play (start c tasks e) 2 before idle.1).1
  have absent : s.rest 3 = (tasks 3).activity c ∧ actsOf 3 s.log = [] :=
    idle_play (start c tasks e) 3 before idle.2
  have absent' : s'.rest 3 = (tasks 3).activity c ∧ actsOf 3 s'.log = [] := by
    rw [← absent.1, ← absent.2]
    exact idle_play s 3 (.turn 2 answers :: .turn 2 answers :: clearing) (by simp [idle'])
  have absent'' : s''.rest 3 = (tasks 3).activity c := by
    rw [← absent'.1]
    exact (idle_play s' 3 handing idle''.2).1
  have gone : s''.rest 2 = s'.rest 2 := (idle_play s' 2 handing idle''.1).1
  obtain ⟨next, moved, -⟩ := turn_of_dispose task live unbegun answers
  have here : (s.after (.turn 2 answers)).rest 2 = .state .cancelActive next := by
    simp [moved]
  have recorded : s'.Recorded c tasks := ((recorded_start c tasks rfl reachable).play before).play
    (.turn 2 answers :: .turn 2 answers :: clearing)
  obtain ⟨answer, ended⟩ := ended
  obtain rfl := (recorded.disposed (d := 2) task ended).1
  have others (i : Fin 4) (other : i ≠ 2) : s.LeavesTree c tasks i :=
    match i with
    | 0 => .inr (.inr (.inl turn))
    | 1 => .inr (.inl waits)
    | 2 => absurd rfl other
    | 3 => .inl (.inr absent.1)
  have others' (i : Fin 4) : s''.LeavesTree c tasks i :=
    match i with
    | 0 => .inl (.inl reported)
    | 1 => .inr (.inr (.inl unplanned.1))
    | 2 => .inl (.inl ⟨_, gone.trans ended⟩)
    | 3 => .inl (.inr absent'')
  obtain ⟨-, -, empties⟩ := dispose_final (c := c) (e := e) rfl reachable before task
  have empty := empties live unbegun others answers (.turn 2 answers :: clearing) ended
  obtain ⟨-, cancels, -⟩ := dispose_final (c := c) (e := e) rfl reachable
    (before ++ [.turn 2 answers]) task
  obtain ⟨final, -⟩ := dispose_final (c := c) (e := e) rfl reachable
    (before ++ .turn 2 answers :: .turn 2 answers :: clearing) task
  obtain ⟨final', -⟩ := dispose_final (c := c) (e := e) rfl reachable
    (before ++ (.turn 2 answers :: .turn 2 answers :: clearing ++ handing)) task
  simp only [play_append, play_cons, play_nil, List.cons_append] at cancels final final'
  refine ⟨rfl, reachable, task, active, waits, ended, unplanned, fun later => ?_, fun later => ?_⟩
  · obtain ⟨more, begins, paid, -⟩ := cancels 0 0 next rfl active' here answers (clearing ++ later)
    refine ⟨?_, (empty later).1, ?_, ?_⟩
    · rw [← absent'.2]
      exact ((final ended later).1 3 _ rfl absent'.1).1
    · rw [play_append, owed, List.nil_append] at begins
      rw [begins]
      exact paid
    · exact ((empty later).2 1 (.inr (.inl waits'))).trans none
  · have gone : s''.rest 2 = .done .disposed := gone.trans ended
    obtain ⟨-, still⟩ := (final' gone later).2 (empty handing).1 others'
    exact (still 1 (.inr (.inr unplanned))).trans none'

/-- A run that was let in before the disposal discovers and launches after it. -/
theorem dispose_final_let_in :
    let source := ":- begin_tests(u).\ntest(a).\n"
    let c : Controller := { roots := [.ofString "/ws"], settings := {} }
    let tasks : Fin 2 → Task := fun
      | 0 => .run .all {} 0
      | 1 => .dispose
    let answers : Answers := fun
      | .enumerate _ => .ok [.ofString "/ws/a.pl"]
      | .read _ => .ok source
      | .launch _ => .finished { exitCode := some 0, text := "" }
      | .notify _ => ()
      | .note _ => ()
    let turns (i : Fin 2) (count : Nat) := List.replicate count (Move.turn i answers)
    let s := (start c tasks {}).play (turns 0 1 ++ turns 1 5)
    s.rest 1 = .done .disposed ∧ s.engine.tree = {} ∧
      ¬ ∀ later, (s.play later).engine.tree = {} ∧
        ∀ i, begun i (s.play later).log = begun i s.log := by
  intro source c tasks answers turns s
  refine ⟨rfl, rfl, fun final => ?_⟩
  have launched : begun 0 (s.play (turns 0 40)).log ≠ begun 0 s.log := by decide +kernel
  exact launched ((final (turns 0 40)).2 0)

end Scene

end TestExplorer
