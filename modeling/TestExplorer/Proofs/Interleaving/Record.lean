import TestExplorer.Proofs.Interleaving.Guard
import TestExplorer.Proofs.Stories

set_option autoImplicit false

namespace TestExplorer

namespace Engine

theorem isRaised_perform {e : Engine} {flag : Flag} (raised : e.isRaised flag = true)
    (action : StateAction) : (e.perform action).2.isRaised flag = true := by
  have kept (other : Flag) : (e.raise other).isRaised flag = true := by
    simpa [raise, isRaised] using .inr (by simpa [isRaised] using raised)
  cases action with
  | cancelActive =>
    simp only [perform]
    split
    next other _ => exact kept other
    next => exact raised
  | raise other => exact kept other
  | _ => exact raised

theorem disposed_perform {e : Engine} (disposed : e.disposed = true) (action : StateAction) :
    (e.perform action).2.disposed = true := by
  cases action with
  | cancelActive =>
    simp only [perform]
    split <;> exact disposed
  | markDisposed => rfl
  | _ => exact disposed

end Engine

namespace Scene

variable {ι : Type} [DecidableEq ι]

/-! ## Phases -/

theorem leadsTo_of_outside {i : ι} {log : List (ι × Act)} (outside : phaseIn i log = .outside)
    {act : Act} (member : (i, act) ∈ log) : act.leadsTo = none := by
  induction log using List.reverseRecOn with
  | nil => cases member
  | append_singleton log entry ih =>
    obtain ⟨j, last⟩ := entry
    rw [phaseIn_append] at outside
    have started : last.leadsTo ≠ some .outside := by
      cases last with
      | state action answer =>
        unfold Act.leadsTo
        split <;> simp
      | host action answer =>
        unfold Act.leadsTo
        split <;> simp
      | began invocation => nofun
    by_cases same : j = i
    · rw [if_pos same] at outside
      cases leads : last.leadsTo with
      | some phase =>
        simp only [Phase.after, leads, Option.getD_some] at outside
        exact absurd (outside ▸ leads) started
      | none =>
        simp only [Phase.after, leads, Option.getD_none] at outside
        rcases List.mem_append.1 member with earlier | now
        · exact ih outside earlier
        · simp only [List.mem_singleton, Prod.mk.injEq] at now
          exact now.2 ▸ leads
    · rw [if_neg same] at outside
      refine ih outside ((List.mem_append.1 member).resolve_right fun now => same ?_)
      simp only [List.mem_singleton, Prod.mk.injEq] at now
      exact now.1.symm

theorem latest {i : ι} {log : List (ι × Act)} (begun : phaseIn i log ≠ .outside) :
    ∃ before act after, log = before ++ (i, act) :: after ∧
      act.leadsTo = some (phaseIn i log) ∧ ∀ later, (i, later) ∈ after → later.leadsTo = none := by
  induction log using List.reverseRecOn with
  | nil => exact absurd rfl begun
  | append_singleton log entry ih =>
    obtain ⟨j, last⟩ := entry
    rw [phaseIn_append] at begun ⊢
    have later (same : (if j = i then (phaseIn i log).after last else phaseIn i log) = phaseIn i log)
        (quiet : j = i → last.leadsTo = none) : ∃ before act after,
          log ++ [(j, last)] = before ++ (i, act) :: after ∧
            act.leadsTo = some (if j = i then (phaseIn i log).after last else phaseIn i log) ∧
            ∀ later, (i, later) ∈ after → later.leadsTo = none := by
      rw [same] at begun ⊢
      obtain ⟨before, act, after, parts, leads, none⟩ := ih begun
      refine ⟨before, act, after ++ [(j, last)], by simp [parts], leads, fun later member => ?_⟩
      rcases List.mem_append.1 member with earlier | now
      · exact none later earlier
      · simp only [List.mem_singleton, Prod.mk.injEq] at now
        exact now.2 ▸ quiet now.1.symm
    by_cases same : j = i
    · cases leads : last.leadsTo with
      | none => exact later (by simp [same, Phase.after, leads]) fun _ => leads
      | some phase =>
        exact ⟨log, last, [], by rw [same], by simp [same, Phase.after, leads], by simp⟩
    · exact later (if_neg same) fun here => absurd here same

/-! ## The shared state -/

/-- What the log says of the shared state was so, and as far as it lasts it is so. -/
structure Truthful (tasks : ι → Task) (s : Scene ι) : Prop where
  tree : s.engine.tree.Reachable
  reads : ∀ i tree, (i, .state .readTree tree) ∈ s.log → tree.Reachable
  looks : ∀ i flag raised, (i, .state (.isRaised flag) raised) ∈ s.log →
    (tasks i).flag? = some flag ∧ (raised = true → s.engine.isRaised flag = true)
  refusals : ∀ i, (i, .state .isDisposed true) ∈ s.log → s.engine.disposed = true
  disposals : ∀ i known, (i, .state .markDisposed known) ∈ s.log → s.engine.disposed = true

def story (i : ι) (log : List (ι × Act)) : List Act :=
  log.filterMap fun (j, act) => if j = i ∧ act.isBeginning = false then some act else none

theorem mem_story {i : ι} {log : List (ι × Act)} {act : Act} :
    act ∈ story i log ↔ (i, act) ∈ log ∧ act.isBeginning = false := by
  simp only [story, List.mem_filterMap, Option.ite_none_right_eq_some, Option.some.injEq]
  constructor
  · rintro ⟨⟨j, act⟩, member, ⟨rfl, answered⟩, rfl⟩
    exact ⟨member, answered⟩
  · rintro ⟨member, answered⟩
    exact ⟨(i, act), member, ⟨rfl, answered⟩, rfl⟩

/-- Whatever a request goes on to do, together with what it has done it is a story of the request. -/
def Faithful (c : Controller) (tasks : ι → Task) (s : Scene ι) : Prop :=
  ∀ i later reply, (s.rest i).Tells later reply →
    ((tasks i).activity c).Tells (story i s.log ++ later) reply

variable {c : Controller} {tasks : ι → Task} {s : Scene ι}

theorem Truthful.take (truthful : s.Truthful tasks) (orderly : s.Orderly tasks) {i : ι}
    {answers : Answers} {act : Act} {rest : Activity Task.Reply}
    (taken : s.next i answers = some (act, rest)) : (s.take i act rest).Truthful tasks := by
  have raised {flag : Flag} (before : s.engine.isRaised flag = true) :
      (act.engine s.engine).isRaised flag = true := by
    cases act with
    | state action answer => exact Engine.isRaised_perform before action
    | _ => exact before
  have disposed (before : s.engine.disposed = true) : (act.engine s.engine).disposed = true := by
    cases act with
    | state action answer => exact Engine.disposed_perform before action
    | _ => exact before
  constructor
  case tree =>
    cases act with
    | state action answer => exact Engine.reachable_perform truthful.tree action
    | _ => exact truthful.tree
  case reads =>
    intro j tree member
    rcases List.mem_append.1 member with earlier | now
    · exact truthful.reads j tree earlier
    · simp only [List.mem_singleton, Prod.mk.injEq] at now
      obtain ⟨rfl, rfl⟩ := now
      rw [(next_answer taken).2]
      exact truthful.tree
  case looks =>
    intro j flag answer member
    rcases List.mem_append.1 member with earlier | now
    · exact ⟨(truthful.looks j flag answer earlier).1,
        fun seen => raised ((truthful.looks j flag answer earlier).2 seen)⟩
    · simp only [List.mem_singleton, Prod.mk.injEq] at now
      obtain ⟨rfl, rfl⟩ := now
      refine ⟨?_, fun seen => ?_⟩
      · have permitted := (orderly.step taken).1
        generalize s.phase j = phase at permitted
        cases permitted with
        | documents answer about idle => exact about.elim
        | look raised own => exact own
      · exact (next_answer taken).2.symm.trans seen
  case refusals =>
    intro j member
    rcases List.mem_append.1 member with earlier | now
    · exact disposed (truthful.refusals j earlier)
    · simp only [List.mem_singleton, Prod.mk.injEq] at now
      obtain ⟨rfl, rfl⟩ := now
      exact (next_answer taken).2.symm
  case disposals =>
    intro j known member
    rcases List.mem_append.1 member with earlier | now
    · exact disposed (truthful.disposals j known earlier)
    · simp only [List.mem_singleton, Prod.mk.injEq] at now
      obtain ⟨rfl, rfl⟩ := now
      rfl

theorem Faithful.take (faithful : s.Faithful c tasks) {i : ι} {answers : Answers} {act : Act}
    {rest : Activity Task.Reply} (taken : s.next i answers = some (act, rest)) :
    (s.take i act rest).Faithful c tasks := by
  intro j later reply told
  by_cases same : j = i
  · subst same
    rw [take_rest, Function.update_self] at told
    rcases next_cases taken with ⟨action, next, here, -, rfl, rfl⟩ |
      ⟨invocation, next, here, -, rfl, rfl⟩ | ⟨action, next, here, -, rfl, rfl⟩
    · have all := faithful j (_ :: later) reply (by rw [here]; exact ⟨_, later, rfl, told⟩)
      simpa [story, Act.isBeginning] using all
    · simpa [story, Act.isBeginning] using faithful j later reply told
    · have all := faithful j (_ :: later) reply (by rw [here]; exact ⟨_, later, rfl, told⟩)
      simpa [story, Act.isBeginning] using all
  · rw [take_rest, Function.update_of_ne same] at told
    simpa [story, Ne.symm same] using faithful j later reply told

-- What no request changes and no raised flag stays as it was.
theorem play_keeps {γ : Type} {view : Engine → γ} (raising : ∀ e flag, view (e.raise flag) = view e)
    (kept : ∀ i, (s.rest i).Keeps view) (moves : List (Move ι)) :
    view (s.play moves).engine = view s.engine := by
  have both : (∀ i, ((s.play moves).rest i).Keeps view) ∧
      view (s.play moves).engine = view s.engine := by
    refine play_induction (P := fun s' => (∀ i, (s'.rest i).Keeps view) ∧
      view s'.engine = view s.engine) ?raise ?take ⟨kept, rfl⟩ moves
    case raise =>
      intro s' flag held
      exact ⟨held.1, (raising s'.engine flag).trans held.2⟩
    case take =>
      intro s' i answers act rest ⟨kept, same⟩ taken
      obtain ⟨rests, stays⟩ := keeps_step (kept i) taken
      exact ⟨rest_take (P := fun _ x => x.Keeps view) rests fun j _ => kept j, stays.trans same⟩
  exact both.2

/-- However many turns a request takes by itself, what is left of it comes to what all of it would have
come to where nobody else is there, with a host that gives the same answers. -/
theorem play_alone (s : Scene ι) (i : ι) (answers : Answers) (count : Nat) :
    let host : Activity.Host Unit := fun action e => (answers action, e)
    let s' := s.play (List.replicate count (.turn i answers))
    (s'.rest i).exec host (s'.engine, ()) = (s.rest i).exec host (s.engine, ()) := by
  intro host
  induction count generalizing s with
  | zero => rfl
  | succ count ih =>
    refine (ih (s.after (.turn i answers))).trans ?_
    unfold after
    dsimp only
    split
    next act rest taken =>
      rw [take_rest, Function.update_self, take_engine]
      rcases next_cases taken with ⟨action, next, here, -, rfl, rfl⟩ |
        ⟨invocation, next, here, -, rfl, rfl⟩ | ⟨action, next, here, -, rfl, rfl⟩
      · rw [here]
        rfl
      · rfl
      · rw [here]
        rfl
    next => rfl

structure Recorded (c : Controller) (tasks : ι → Task) (s : Scene ι) : Prop where
  orderly : s.Orderly tasks
  truthful : s.Truthful tasks
  faithful : s.Faithful c tasks

theorem Recorded.play (recorded : s.Recorded c tasks) (moves : List (Move ι)) :
    (s.play moves).Recorded c tasks := by
  refine play_induction ?raise ?take recorded moves
  case raise =>
    intro s flag recorded
    refine ⟨{ recorded.orderly with }, { recorded.truthful with looks := ?_ }, recorded.faithful⟩
    intro i own raised member
    obtain ⟨mine, seen⟩ := recorded.truthful.looks i own raised member
    exact ⟨mine, fun up => Engine.isRaised_perform (seen up) (.raise flag)⟩
  case take =>
    intro s i answers act rest recorded taken
    exact ⟨recorded.orderly.take taken, recorded.truthful.take recorded.orderly taken,
      recorded.faithful.take taken⟩

theorem recorded_start (c : Controller) (tasks : ι → Task) {e : Engine} (idle : e.active = none)
    (reachable : e.tree.Reachable) : (start c tasks e).Recorded c tasks where
  orderly := orderly_start c tasks idle
  truthful := { tree := reachable, reads := nofun, looks := nofun, refusals := nofun,
                disposals := nofun }
  faithful _ _ _ told := told

end Scene

end TestExplorer
