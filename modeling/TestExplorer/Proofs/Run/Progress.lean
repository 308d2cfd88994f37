import TestExplorer.Proofs.Requests
import TestExplorer.Proofs.Run.Report

set_option autoImplicit false

namespace TestExplorer

variable {scope : Scope} {options : RunOptions} {flag : Flag} {acts : List Act}

/-- The events are those of a run with this report and so many tests in its plan. -/
def Report.IsToldBy (report : Report) (planned : Nat) (events : List RunEvent) : Prop :=
  ∃ done : List (WorkItem × Outcome),
    (report.results = done.map fun (item, outcome) =>
      { id := item.id, suite := item.suite, name := item.test, outcome }) ∧
    events = .runStart planned :: ((done.flatMap fun (item, outcome) =>
      [.started item, .finished item outcome]) ++ [.complete report])

theorem told_planned {items : List WorkItem} (told : (planned scope options).Tells acts items) :
    ∃ tree, .state .readTree tree ∈ acts ∧ items = tree.plan scope options ∧ Act.Quiet acts := by
  simp only [planned, logged, Activity.tells_bind, Activity.tells_pure] at told
  obtain ⟨reading, _, tree, rfl, read, noting, _, _, rfl, noted, rfl, rfl⟩ := told
  obtain ⟨inside, rfl, inner⟩ := (Activity.tells_holding _ _ _ _).1 read
  obtain rfl := (Activity.tells_stateStep _ _ _).1 inner
  obtain rfl := (Activity.tells_hostStep (.note _) _ _).1 noted
  exact ⟨tree, by simp, rfl, by simp, by simp⟩

theorem told_runScope_parts {report : Report}
    (told : (runScope scope options flag).Tells acts report) :
    ∃ tree planning looping session recorded,
      .state .readTree tree ∈ planning ∧ Act.Quiet planning ∧
      (runItems options flag (tree.plan scope options) (.ofPlan (tree.plan scope options)) {}).Tells
        looping (session, recorded) ∧
      report = { recorded with notRun := session.unfinished } ∧
      acts = planning ++
        (.host (.notify (.runStart (tree.plan scope options).length)) () ::
          (looping ++ [.host (.notify (.complete report)) ()])) := by
  simp only [runScope, Activity.tells_bind, Activity.tells_pure] at told
  obtain ⟨planning, _, items, parts, planned, _, _, _, rfl, starting, looping, _,
    ⟨session, recorded⟩, rfl, looped, _, _, _, rfl, completing, rfl, rfl⟩ := told
  obtain rfl := (Activity.tells_hostStep (.notify _) _ _).1 starting
  obtain rfl := (Activity.tells_hostStep (.notify _) _ _).1 completing
  obtain ⟨tree, read, rfl, quiet⟩ := told_planned planned
  exact ⟨tree, planning, looping, session, recorded, read, quiet, looped, rfl, parts⟩

theorem told_run_parts {c : Controller} {result : Except EngineError Report}
    (told : (c.run scope options flag).Tells acts result) :
    (result = .error .disposed ∧ .state .isDisposed true ∈ acts) ∨
      ∃ report before inside after, result = .ok report ∧
        (runScope scope options flag).Tells inside report ∧
        Act.Quiet before ∧ Act.Quiet after ∧ acts = before ++ (inside ++ after) := by
  simp only [Controller.run, Controller.live, Activity.tells_bind] at told
  obtain ⟨asking, _, disposed, rfl, asked, told⟩ := told
  obtain rfl := (Activity.tells_stateStep .isDisposed _ _).1 asked
  cases disposed with
  | true =>
    obtain ⟨rfl, rfl⟩ := told
    exact .inl ⟨rfl, by simp⟩
  | false =>
    simp only [Bool.false_eq_true, if_false, Activity.tells_bind] at told
    obtain ⟨discovering, _, _, rfl, discovered, told⟩ := told
    obtain ⟨inside, rfl, body⟩ := (Activity.tells_holding _ _ _ _).1 told
    simp only [Activity.tells_bind, Activity.tells_pure] at body
    obtain ⟨_, _, _, rfl, entering, running, _, report, rfl, ran, _, _, _, rfl, leaving, rfl,
      rfl⟩ := body
    obtain rfl := (Activity.tells_stateStep (.setActive _) _ _).1 entering
    obtain rfl := (Activity.tells_stateStep (.setActive _) _ _).1 leaving
    have quiet : Act.Quiet discovering :=
      (aboutDocuments_ensureDiscovered c).quiet (fun _ => id) (fun _ => id) discovered
    refine .inr ⟨report, .state .isDisposed false :: discovering ++
      [.state (.acquire .runs) (), .state (.setActive (some flag)) ()], running,
      [.state (.setActive none) (), .state (.release .runs) ()], rfl, ran, ?_, ⟨rfl, rfl⟩, by simp⟩
    exact ⟨by simp [quiet.ended], by simp [quiet.events]⟩

theorem told_runScope_events {report : Report}
    (told : (runScope scope options flag).Tells acts report) :
    ∃ tree, .state .readTree tree ∈ acts ∧
      (tree.Reachable → report.IsToldBy (tree.plan scope options).length (Act.events acts)) := by
  obtain ⟨tree, planning, looping, session, recorded, read, quiet, looped, rfl, rfl⟩ :=
    told_runScope_parts told
  refine ⟨tree, by simp [read], fun reachable => ?_⟩
  have stands := Session.stands_ofPlan (Tree.nodup_plan reachable.wellFormed scope options)
  obtain ⟨-, -, -, reported, -, events⟩ := told_runItems options flag stands {} looped
  have reported : recorded = _ := reported
  refine ⟨(tree.plan scope options).zip ((Act.ended looping).map (·.2.outcome)), ?_, ?_⟩
  · rw [reported]
    exact (Report.recordAll_results _ _).trans (List.nil_append _)
  · simp [quiet.events, events]

theorem told_run_events {c : Controller} {report : Report}
    (told : (c.run scope options flag).Tells acts (.ok report)) :
    ∃ tree, .state .readTree tree ∈ acts ∧
      (tree.Reachable → report.IsToldBy (tree.plan scope options).length (Act.events acts)) := by
  rcases told_run_parts told with
    ⟨refused, -⟩ | ⟨_, before, inside, after, same, ran, first, last, rfl⟩
  · cases refused
  · obtain rfl := Except.ok.inj same
    obtain ⟨tree, read, events⟩ := told_runScope_events ran
    refine ⟨tree, by simp [read], fun reachable => ?_⟩
    simpa [first.events, last.events] using events reachable

end TestExplorer
