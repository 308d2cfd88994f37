import TestExplorer.Controller.Rehearsal
import TestExplorer.Ignore.Listing
import TestExplorer.Proofs.Run.Plan
import TestExplorer.Proofs.Run.Session
import TestExplorer.Proofs.Stories

set_option autoImplicit false

namespace TestExplorer

variable {σ : Type}

namespace Activity

def Step.launch? (h : Host σ) : Step σ → Option (Invocation × LaunchResult)
  | .host (.launch invocation) s => some (invocation, (h (.launch invocation) s).1)
  | _ => none

def launches (h : Host σ) (steps : List (Step σ)) : List (Invocation × LaunchResult) :=
  steps.filterMap (Step.launch? h)

@[simp] theorem launches_nil (h : Host σ) : launches h [] = [] := rfl

@[simp] theorem launches_append (h : Host σ) (before after : List (Step σ)) :
    launches h (before ++ after) = launches h before ++ launches h after :=
  List.filterMap_append

@[simp] theorem launches_state (h : Host σ) (action : StateAction) (s : Engine × σ)
    (rest : List (Step σ)) : launches h (.state action s :: rest) = launches h rest := rfl

@[simp] theorem launches_launch (h : Host σ) (invocation : Invocation) (s : Engine × σ)
    (rest : List (Step σ)) :
    launches h (.host (.launch invocation) s :: rest) =
      (invocation, (h (.launch invocation) s).1) :: launches h rest := rfl

@[simp] theorem launches_notify (h : Host σ) (event : RunEvent) (s : Engine × σ)
    (rest : List (Step σ)) : launches h (.host (.notify event) s :: rest) = launches h rest := rfl

@[simp] theorem launches_note (h : Host σ) (notices : List Notice) (s : Engine × σ)
    (rest : List (Step σ)) : launches h (.host (.note notices) s :: rest) = launches h rest := rfl

theorem ended_told (h : Host σ) (steps : List (Step σ)) :
    Act.ended (steps.map (Step.told h)) = launches h steps := by
  have one (step : Step σ) : (Step.told h step).ended? = step.launch? h := by
    rcases step with ⟨action, s⟩ | ⟨action, s⟩
    · rfl
    · cases action <;> rfl
  rw [Act.ended, List.filterMap_map, launches]
  exact List.filterMap_congr fun step _ => one step

/-- The flag is seen raised at a step after which nothing is launched any more. -/
def SeesRaised (h : Host σ) (flag : Flag) (steps : List (Step σ)) : Prop :=
  ∃ before s after, steps = before ++ .state (.isRaised flag) s :: after ∧
    s.1.isRaised flag = true ∧ launches h before = launches h steps

def LeavesFlag (h : Host σ) (flag : Flag) (steps : List (Step σ)) : Prop :=
  ∀ action s, .host action s ∈ steps → s.1.isRaised flag = false →
    (h action s).2.1.isRaised flag = false

theorem LeavesFlag.mono {h : Host σ} {flag : Flag} {steps part : List (Step σ)}
    (leaves : LeavesFlag h flag steps) (within : part ⊆ steps) : LeavesFlag h flag part :=
  fun action s member => leaves action s (within member)

theorem SeesRaised.prepend {h : Host σ} {flag : Flag} {steps : List (Step σ)}
    (sees : SeesRaised h flag steps) (earlier : List (Step σ)) :
    SeesRaised h flag (earlier ++ steps) := by
  obtain ⟨before, s, after, rfl, raised, all⟩ := sees
  refine ⟨earlier ++ before, s, after, by simp, raised, ?_⟩
  rw [launches_append, all, ← launches_append]

theorem SeesRaised.append {h : Host σ} {flag : Flag} {steps later : List (Step σ)}
    (sees : SeesRaised h flag steps) (quiet : launches h later = []) :
    SeesRaised h flag (steps ++ later) := by
  obtain ⟨before, s, after, rfl, raised, all⟩ := sees
  refine ⟨before, s, after ++ later, by simp, raised, ?_⟩
  rw [launches_append, quiet, List.append_nil, all]

end Activity

namespace Report

def recordAll (r : Report) (done : List (WorkItem × Outcome)) : Report :=
  done.foldl (fun r (item, outcome) => r.record item outcome) r

theorem record_results (r : Report) (item : WorkItem) (o : Outcome) :
    (r.record item o).results =
      r.results ++ [{ id := item.id, suite := item.suite, name := item.test, outcome := o }] := by
  cases o <;> rfl

theorem record_cancelled (r : Report) (item : WorkItem) (o : Outcome) :
    (r.record item o).cancelled = r.cancelled := by
  cases o <;> rfl

def Counts (r : Report) : Prop :=
  r.passed = r.results.countP (·.outcome.isPassed) ∧
    r.passed + r.failed = r.results.length ∧
    r.failures = r.results.filterMap fun result =>
      result.outcome.message?.map (result.suite ++ ":" ++ result.name ++ ": " ++ ·)

theorem Counts.record {r : Report} (counts : r.Counts) (item : WorkItem) (o : Outcome) :
    (r.record item o).Counts := by
  obtain ⟨passed, all, failures⟩ := counts
  cases o with
  | passed =>
    simp [Report.record, Counts, Outcome.isPassed, Outcome.message?, passed, ← all, failures]
    omega
  | failed message =>
    simp [Report.record, Counts, Outcome.isPassed, Outcome.message?, WorkItem.label, passed, ← all,
      failures]
    omega

theorem Counts.recordAll {r : Report} (counts : r.Counts) (done : List (WorkItem × Outcome)) :
    (r.recordAll done).Counts := by
  induction done generalizing r with
  | nil => exact counts
  | cons entry rest ih => exact ih (counts.record entry.1 entry.2)

theorem recordAll_results (r : Report) (done : List (WorkItem × Outcome)) :
    (r.recordAll done).results =
      r.results ++ done.map fun (item, outcome) =>
        { id := item.id, suite := item.suite, name := item.test, outcome } := by
  induction done generalizing r with
  | nil => simp [recordAll]
  | cons entry rest ih =>
    have later := ih (r.record entry.1 entry.2)
    rw [record_results] at later
    simpa [recordAll] using later

-- Only as many items as have been launched get a verdict.
theorem recordAll_launched {items : List WorkItem} {ends : List (Invocation × LaunchResult)}
    (bounded : ends.length ≤ items.length) :
    (({} : Report).recordAll (items.zip (ends.map (·.2.outcome)))).results =
      (items.take ends.length).zipWith
        (fun item launch => { id := item.id, suite := item.suite, name := item.test,
                              outcome := launch.2.outcome }) ends := by
  rw [recordAll_results, List.map_zip_eq_zipWith, List.zipWith_map_right,
    List.zipWith_eq_zipWith_take_min, Nat.min_eq_right bounded, List.take_length]
  rfl

end Report

def stopAfter (options : RunOptions) (flag : Flag) (outcome : Outcome) : Activity Unit :=
  if !outcome.isPassed && options.stopOnFailure then stateStep (.raise flag) else pure ()

def runItem (options : RunOptions) (flag : Flag) (item : WorkItem) : Activity Outcome := do
  hostStep (.notify (.started item))
  let outcome ← runOne item
  hostStep (.notify (.finished item outcome))
  stopAfter options flag outcome
  pure outcome

variable (options : RunOptions) (flag : Flag) {session : Session}
  {behind : List (TestId × TestState)} {item : WorkItem} {ahead items : List WorkItem}

theorem runItems_cons (stands : session.Stands behind (item :: ahead)) (report : Report) :
    runItems options flag (item :: ahead) session report = (do
      if ← stateStep (.isRaised flag) then
        pure (session, { report with cancelled := true })
      else
        let outcome ← runItem options flag item
        runItems options flag ahead ((session.start item.id).1.finish item.id outcome).1
          (report.record item outcome)) := by
  simp only [runItems, runItem, bind_assoc]
  congr
  funext raised
  split
  next => rfl
  next =>
    congr
    funext _
    congr
    funext outcome
    simp only [(stands.finish_start outcome).1, if_true]
    congr
    funext _
    unfold stopAfter
    split <;> rfl

variable (h : Activity.Host σ) (s : Engine × σ)

theorem launches_runItem (item : WorkItem) :
    let one := runItem options flag item
    ∃ result, Activity.launches h (one.steps h s) = [(item.invocation, result)] ∧
      (one.exec h s).1 = result.outcome := by
  let told := (h (.notify (.started item)) s).2
  have quiet (o : Outcome) (s : Engine × σ) :
      Activity.launches h ((stopAfter options flag o).steps h s) = [] := by
    unfold stopAfter
    split <;> rfl
  refine ⟨(h (.launch item.invocation) told).1, ?_, ?_⟩
  · simp [runItem, runOne, told, quiet]
  · simp [runItem, runOne, told]

-- The loop goes on with the rest of the plan, or ends where it sees the flag raised.
theorem runItems_step (stands : session.Stands behind (item :: ahead)) (report : Report) :
    let loop := runItems options flag (item :: ahead) session report
    (s.1.isRaised flag = true ∧ loop.steps h s = [.state (.isRaised flag) s] ∧
      (loop.exec h s).1 = (session, { report with cancelled := true })) ∨
    (s.1.isRaised flag = false ∧
      let one := runItem options flag item
      let ended := one.exec h s
      ∃ session', session'.Stands (behind ++ [(item.id, .ofOutcome ended.1)]) ahead ∧
        let rest := runItems options flag ahead session' (report.record item ended.1)
        loop.steps h s = .state (.isRaised flag) s :: (one.steps h s ++ rest.steps h ended.2) ∧
          (loop.exec h s).1 = (rest.exec h ended.2).1) := by
  intro loop
  cases raised : s.1.isRaised flag with
  | true =>
    refine .inl ⟨rfl, ?_, ?_⟩ <;>
      simp [loop, runItems_cons options flag stands, Engine.perform, raised]
  | false =>
    refine .inr ⟨rfl, ?_⟩
    intro one ended
    refine ⟨((session.start item.id).1.finish item.id ended.1).1,
      (stands.finish_start ended.1).2, ?_, ?_⟩ <;>
      simp [loop, one, ended, runItems_cons options flag stands, Engine.perform, raised]

theorem told_stopAfter {o : Outcome} {acts : List Act}
    (told : (stopAfter options flag o).Tells acts ()) : Act.Quiet acts := by
  unfold stopAfter at told
  split at told
  next =>
    obtain rfl := (Activity.tells_stateStep _ _ _).1 told
    exact ⟨rfl, rfl⟩
  next =>
    obtain ⟨rfl, -⟩ := told
    exact ⟨rfl, rfl⟩

theorem told_runItem {acts : List Act} {outcome : Outcome}
    (told : (runItem options flag item).Tells acts outcome) :
    ∃ result, Act.ended acts = [(item.invocation, result)] ∧ outcome = result.outcome ∧
      Act.events acts = [.started item, .finished item outcome] := by
  simp only [runItem, runOne, logged, Activity.tells_bind, Activity.tells_pure] at told
  obtain ⟨_, _, _, rfl, starting, _, _, outcome, rfl, ⟨_, _, result, rfl, launching, _, _, _, rfl,
    noting, rfl, rfl⟩, _, _, _, rfl, finishing, _, _, _, rfl, stopping, rfl, rfl⟩ := told
  obtain rfl := (Activity.tells_hostStep (.notify _) _ _).1 starting
  obtain rfl := (Activity.tells_hostStep (.launch _) _ _).1 launching
  obtain rfl := (Activity.tells_hostStep (.note _) _ _).1 noting
  obtain rfl := (Activity.tells_hostStep (.notify _) _ _).1 finishing
  have quiet := told_stopAfter options flag stopping
  exact ⟨result, by simp [quiet.ended], rfl, by simp [quiet.events]⟩

/-- However others interfere, the loop launches a first part of its items, in order, records what
those launches ended with, and tells of the start and of the end of each. It leaves items out only
where it has found its flag raised. -/
theorem told_runItems (stands : session.Stands behind items) (report : Report) {acts : List Act}
    {out : Session × Report}
    (told : (runItems options flag items session report).Tells acts out) :
    let ends := Act.ended acts
    ends.length ≤ items.length ∧
      ends.map (·.1) = (items.take ends.length).map (·.invocation) ∧
      out.1.unfinished = items.length - ends.length ∧
      out.2 = { report.recordAll (items.zip (ends.map (·.2.outcome))) with
          cancelled := report.cancelled || decide (ends.length < items.length) } ∧
      (ends.length < items.length → .state (.isRaised flag) true ∈ acts) ∧
      Act.events acts = (items.zip (ends.map (·.2.outcome))).flatMap fun (item, outcome) =>
        [.started item, .finished item outcome] := by
  induction items generalizing session behind report acts with
  | nil =>
    obtain ⟨rfl, rfl⟩ := told
    simp [stands.unfinished, Report.recordAll]
  | cons item ahead ih =>
    rw [runItems_cons options flag stands, Activity.tells_bind] at told
    obtain ⟨look, rest, raised, rfl, looked, told⟩ := told
    obtain rfl := (Activity.tells_stateStep _ _ _).1 looked
    cases raised with
    | true =>
      obtain ⟨rfl, rfl⟩ := told
      simp [stands.unfinished, Report.recordAll]
    | false =>
      obtain ⟨one, later, outcome, rfl, first, told⟩ := (Activity.tells_bind _ _ _ _).1 told
      obtain ⟨result, launched, rfl, said⟩ := told_runItem options flag first
      obtain ⟨bounded, invocations, unfinished, reported, seen, told⟩ :=
        ih (stands.finish_start result.outcome).2 (report.record item result.outcome) told
      intro ends
      have all : ends = (item.invocation, result) :: Act.ended later := by simp [ends, launched]
      refine ⟨by simpa [all] using bounded, by simpa [all] using invocations, ?_, ?_, ?_, ?_⟩
      · rw [unfinished]
        simp [all]
      · rw [reported]
        simp [all, Report.recordAll, Report.record_cancelled]
      · intro few
        have found := seen (by simpa [all] using few)
        simp [found]
      · simp [all, said, told]

theorem runItems_report (stands : session.Stands behind items) (report : Report) :
    let loop := runItems options flag items session report
    let ends := Activity.launches h (loop.steps h s)
    ends.length ≤ items.length ∧
      ends.map (·.1) = (items.take ends.length).map (·.invocation) ∧
      (loop.exec h s).1.1.unfinished = items.length - ends.length ∧
      (loop.exec h s).1.2 =
        { report.recordAll (items.zip (ends.map (·.2.outcome))) with
          cancelled := report.cancelled || decide (ends.length < items.length) } := by
  intro loop ends
  have told := told_runItems options flag stands report (Activity.exec_tells h loop s)
  rw [Activity.ended_told] at told
  exact ⟨told.1, told.2.1, told.2.2.1, told.2.2.2.1⟩

theorem runItems_seesRaised (stands : session.Stands behind items) (report : Report) :
    let steps := (runItems options flag items session report).steps h s
    (Activity.launches h steps).length < items.length → Activity.SeesRaised h flag steps := by
  induction items generalizing session behind report s with
  | nil => simp
  | cons item ahead ih =>
    intro steps few
    rcases runItems_step options flag h s stands report with
      ⟨raised, all, -⟩ | ⟨-, session', stands', all, -⟩
    · refine ⟨[], s, [], all, raised, ?_⟩
      simp [steps, all]
    · obtain ⟨result, launched, -⟩ := launches_runItem options flag h s item
      have later := ih ((runItem options flag item).exec h s).2 stands'
        (report.record item ((runItem options flag item).exec h s).1)
      simp only [steps, all, Activity.launches_state, Activity.launches_append, launched,
        List.length_append, List.length_cons, List.length_nil] at few
      have sees := later (by omega)
      simp only [steps, all]
      exact (sees.prepend (_ :: (runItem options flag item).steps h s))

theorem runItem_leaves {item : WorkItem}
    (clear : s.1.isRaised flag = false)
    (leaves : Activity.LeavesFlag h flag ((runItem options flag item).steps h s))
    (goes : options.stopOnFailure → ((runItem options flag item).exec h s).1.isPassed) :
    ((runItem options flag item).exec h s).2.1.isRaised flag = false := by
  let told := (h (.notify (.started item)) s).2
  let launch := h (.launch item.invocation) told
  let noted := (h (.note launch.1.notices) launch.2).2
  let closed := (h (.notify (.finished item launch.1.outcome)) noted).2
  have clearTold : told.1.isRaised flag = false := leaves _ _ (by simp [runItem]) clear
  have clearLaunch : launch.2.1.isRaised flag = false :=
    leaves _ _ (by simp [runItem, runOne, told]) clearTold
  have clearNoted : noted.1.isRaised flag = false :=
    leaves _ _ (by simp [runItem, runOne, told, launch]) clearLaunch
  have clearClosed : closed.1.isRaised flag = false :=
    leaves _ _ (by simp [runItem, runOne, told, launch, noted]) clearNoted
  have unstopped : stopAfter options flag launch.1.outcome = pure () := by
    have passed (stop : options.stopOnFailure) : launch.1.outcome.isPassed := by
      simpa [runItem, runOne, told, launch] using goes stop
    cases stop : options.stopOnFailure with
    | false => simp [stopAfter, stop]
    | true => simp [stopAfter, passed stop]
  have ends : ((runItem options flag item).exec h s).2 = closed := by
    simp [runItem, runOne, told, launch, noted, closed, unstopped]
  rw [ends]
  exact clearClosed

theorem runItems_completes (stands : session.Stands behind items) (report : Report)
    (clear : s.1.isRaised flag = false) :
    let steps := (runItems options flag items session report).steps h s
    Activity.LeavesFlag h flag steps →
      (options.stopOnFailure → ∀ launch ∈ Activity.launches h steps, launch.2.outcome.isPassed) →
        (Activity.launches h steps).length = items.length := by
  induction items generalizing session behind report s with
  | nil => simp [runItems]
  | cons item ahead ih =>
    intro steps leaves goes
    rcases runItems_step options flag h s stands report with
      ⟨raised, -⟩ | ⟨-, session', stands', all, -⟩
    · simp [raised] at clear
    · let one := runItem options flag item
      let ended := one.exec h s
      let rest := runItems options flag ahead session' (report.record item ended.1)
      obtain ⟨result, launched, outcome⟩ := launches_runItem options flag h s item
      have parts : steps = .state (.isRaised flag) s :: (one.steps h s ++ rest.steps h ended.2) :=
        all
      have first : Activity.LeavesFlag h flag (one.steps h s) := by
        apply leaves.mono
        simp [parts]
      have last : Activity.LeavesFlag h flag (rest.steps h ended.2) := by
        apply leaves.mono
        simp [parts]
      have passes (stop : options.stopOnFailure) : ended.1.isPassed := by
        rw [show ended.1 = result.outcome from outcome]
        exact goes stop (item.invocation, result) (by simp [parts, one, launched])
      have clearEnded := runItem_leaves options flag h s clear first passes
      have later : (Activity.launches h (rest.steps h ended.2)).length = ahead.length := by
        apply ih ended.2 stands' (report.record item ended.1) clearEnded last
        intro stop launch member
        exact goes stop launch (by simp [parts, rest, member])
      simp [parts, one, launched, later]

theorem planned_exec (scope : Scope) :
    (planned scope options).exec h s =
      (s.1.tree.plan scope options, (h (.note (s.1.tree.unknownIn scope)) s).2) := rfl

theorem planned_steps (scope : Scope) :
    (planned scope options).steps h s =
      [.state (.acquire .tree) s, .state .readTree s, .state (.release .tree) s,
        .host (.note (s.1.tree.unknownIn scope)) s] := rfl

-- A run plans what the tree holds when it begins, and its loop then takes the plan as it is.
theorem runScope_parts (scope : Scope) :
    let items := s.1.tree.plan scope options
    let loop := runItems options flag items (.ofPlan items) {}
    let run := runScope scope options flag
    let noted := (h (.note (s.1.tree.unknownIn scope)) s).2
    let begun := (h (.notify (.runStart items.length)) noted).2
    let report := { (loop.exec h begun).1.2 with notRun := (loop.exec h begun).1.1.unfinished }
    (run.exec h s).1 = report ∧
      run.steps h s =
        [.state (.acquire .tree) s, .state .readTree s, .state (.release .tree) s,
          .host (.note (s.1.tree.unknownIn scope)) s,
          .host (.notify (.runStart items.length)) noted] ++
        (loop.steps h begun ++ [.host (.notify (.complete report)) (loop.exec h begun).2]) := by
  simp [runScope, planned_exec, planned_steps]

/-- A run launches the first part of the plan that it made at its start, in order. The report lists
these tests with the outcomes of their launches and counts the rest, and it is cancelled exactly
when a rest is left; then the flag was seen raised, which somebody else or a failure raised
before. -/
theorem runScope_report (h : Activity.Host σ) (s : Engine × σ) (scope : Scope)
    (options : RunOptions) (flag : Flag) (reachable : s.1.tree.Reachable) :
    let items := s.1.tree.plan scope options
    let steps := (runScope scope options flag).steps h s
    let report := ((runScope scope options flag).exec h s).1
    let launches := Activity.launches h steps
    ∃ k ≤ items.length,
      launches.map (·.1) = (items.take k).map (·.invocation) ∧
      report.results = (items.take k).zipWith
        (fun item launch => { id := item.id, suite := item.suite, name := item.test,
                              outcome := launch.2.outcome }) launches ∧
      report.passed + report.failed = k ∧
      report.passed = report.results.countP (·.outcome.isPassed) ∧
      report.failures = report.results.filterMap (fun result =>
        result.outcome.message?.map (result.suite ++ ":" ++ result.name ++ ": " ++ ·)) ∧
      report.notRun = items.length - k ∧
      (report.cancelled = true ↔ k < items.length) ∧
      (k < items.length → ∃ before seen after,
        steps = before ++ .state (.isRaised flag) seen :: after ∧
          seen.1.isRaised flag = true ∧ Activity.launches h before = launches) ∧
      (s.1.isRaised flag = false → Activity.LeavesFlag h flag steps →
        ¬ (options.stopOnFailure ∧ ∃ launch ∈ launches, ¬ launch.2.outcome.isPassed) →
          k = items.length) := by
  intro items steps report launches
  have distinct := Tree.nodup_plan reachable.wellFormed scope options
  have stands := Session.stands_ofPlan distinct
  obtain ⟨reported, parts⟩ := runScope_parts options flag h s scope
  let loop := runItems options flag items (.ofPlan items) {}
  let noted := (h (.note (s.1.tree.unknownIn scope)) s).2
  let begun := (h (.notify (.runStart items.length)) noted).2
  have ends : launches = Activity.launches h (loop.steps h begun) := by
    simp [launches, steps, parts, loop, begun, noted, items]
  obtain ⟨bounded, invocations, unfinished, recorded⟩ :=
    runItems_report options flag h begun stands {}
  rw [← ends] at bounded invocations unfinished recorded
  have seen : launches.length < items.length →
      Activity.SeesRaised h flag (loop.steps h begun) := by
    rw [ends]
    exact runItems_seesRaised options flag h begun stands {}
  let full := ({} : Report).recordAll (items.zip (launches.map (·.2.outcome)))
  have counts : full.Counts := Report.Counts.recordAll (by simp [Report.Counts]) _
  have whole : report = { full with
      cancelled := decide (launches.length < items.length)
      notRun := items.length - launches.length } := by
    rw [show report = _ from reported]
    simp [full, items, begun, noted, unfinished, recorded]
  have results := Report.recordAll_launched bounded
  have number : full.results.length = launches.length := by
    rw [show full.results = _ from results, List.length_zipWith, List.length_take, Nat.min_eq_left bounded, Nat.min_self]
  obtain ⟨passed, total, failures⟩ := counts
  refine ⟨launches.length, bounded, invocations, ?results, ?total, ?passed, ?failures, ?notRun,
    ?cancelled, ?seen, ?completes⟩
  case results => rw [whole, ← results]
  case total => rw [whole, ← number, ← total]
  case passed => rw [whole, ← passed]
  case failures => rw [whole, ← failures]
  case notRun => rw [whole]
  case cancelled => simp [whole]
  case seen =>
    intro few
    have sees : Activity.SeesRaised h flag steps := by
      rw [show steps = _ from parts]
      exact ((seen few).append rfl).prepend _
    exact sees
  case completes =>
    intro clear leaves goes
    have clearNoted : noted.1.isRaised flag = false :=
      leaves _ _ (by simp [steps, parts]) clear
    have clearBegun : begun.1.isRaised flag = false :=
      leaves _ _ (by simp [steps, parts, noted, items]) clearNoted
    have inside : loop.steps h begun ⊆ steps := by
      rw [show steps = _ from parts]
      exact List.subset_append_of_subset_right _ (List.subset_append_left _ _)
    rw [ends]
    apply runItems_completes options flag h begun stands {} clearBegun
    · exact leaves.mono inside
    · intro stop launch member
      by_contra failed
      exact goes ⟨stop, launch, ends ▸ member, failed⟩

theorem runScope_report_cancelled :
    let source := ":- begin_tests(u).\ntest(a).\ntest(b).\ntest(c).\n"
    let tree := ((Document.scan (.ofString "/ws/a.pl") source).insertInto {}).tree
    let world : Rehearsal :=
      { site := { fs := {}, here := [] }, controller := { roots := [], settings := {} },
        recorder := { flag := 0, cancelAfter := .finished 1 } }
    let run := runScope .all {} 0
    let report := (run.exec Rehearsal.quietHost ({ tree }, world)).1
    let launches :=
      Activity.launches Rehearsal.quietHost (run.steps Rehearsal.quietHost ({ tree }, world))
    tree.Reachable ∧ report.cancelled = true ∧
      ∃ k < 3, launches.map (·.1) = ((tree.plan .all {}).take k).map (·.invocation) ∧
        report.notRun = 3 - k := by
  intro source tree world run report launches
  have reachable : tree.Reachable := .insertInto _ .empty
  have stopped : report.cancelled = true := by decide +kernel
  have planned : (tree.plan .all {}).length = 3 := by decide +kernel
  clear_value tree world
  obtain ⟨k, -, launched, -, -, -, -, notRun, cancelled, -⟩ :=
    runScope_report Rehearsal.quietHost ({ tree }, world) .all {} 0 reachable
  have few : k < 3 := planned ▸ cancelled.1 stopped
  exact ⟨reachable, stopped, k, few, launched, planned ▸ notRun⟩

end TestExplorer
