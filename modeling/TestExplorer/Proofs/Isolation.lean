import TestExplorer.Proofs.Interleaving.Launches
import TestExplorer.Proofs.Interleaving.Turns
import TestExplorer.Proofs.Run.Progress

set_option autoImplicit false

namespace TestExplorer

/-- All of a plan is reported, each test with what its launch ended with. -/
structure Report.Covers (report : Report) (plan : List WorkItem)
    (ends : List (Invocation × LaunchResult)) : Prop where
  launched : ends.map (·.1) = plan.map (·.invocation)
  results : report.results = plan.zipWith
    (fun item launch => { id := item.id, suite := item.suite, name := item.test,
                          outcome := launch.2.outcome }) ends
  whole : report.cancelled = false ∧ report.notRun = 0

theorem Report.Covers.length_results {report : Report} {plan : List WorkItem}
    {ends : List (Invocation × LaunchResult)} (covers : report.Covers plan ends) :
    report.results.length = ends.length := by
  have same : ends.length = plan.length := by simpa using congrArg List.length covers.launched
  rw [covers.results, List.length_zipWith, same, Nat.min_self]

section

variable {scope : Scope} {options : RunOptions} {flag : Flag} {acts : List Act}

theorem told_runScope {report : Report} (told : (runScope scope options flag).Tells acts report) :
    ∃ tree, .state .readTree tree ∈ acts ∧
      (tree.Reachable → .state (.isRaised flag) true ∉ acts →
        report.Covers (tree.plan scope options) (Act.ended acts)) := by
  obtain ⟨tree, planning, looping, session, recorded, read, quiet, looped, rfl, parts⟩ :=
    told_runScope_parts told
  refine ⟨tree, by simp [parts, read], fun reachable unseen => ?_⟩
  have stands := Session.stands_ofPlan (Tree.nodup_plan reachable.wellFormed scope options)
  obtain ⟨bounded, invocations, unfinished, reported, seen, -⟩ :=
    told_runItems options flag stands {} looped
  have ends : Act.ended acts = Act.ended looping := by simp [parts, quiet.ended]
  have all : (Act.ended looping).length = (tree.plan scope options).length := by
    by_contra few
    exact unseen (by simp [parts, seen (by omega)])
  rw [all, List.take_length] at invocations
  have reported : recorded = _ := reported
  have unfinished : session.unfinished = _ := unfinished
  rw [ends]
  refine ⟨invocations, ?_, ?_, ?_⟩
  · rw [reported]
    exact (Report.recordAll_launched bounded).trans (by rw [all, List.take_length])
  · simp [reported, all]
  · simp [unfinished, all]

theorem told_run {c : Controller} {result : Except EngineError Report}
    (told : (c.run scope options flag).Tells acts result) :
    (result = .error .disposed ∧ .state .isDisposed true ∈ acts) ∨
      ∃ report tree, result = .ok report ∧ .state .readTree tree ∈ acts ∧
        (tree.Reachable → .state (.isRaised flag) true ∉ acts →
          report.Covers (tree.plan scope options) (Act.ended acts)) := by
  refine (told_run_parts told).imp id ?_
  rintro ⟨report, before, inside, after, rfl, ran, first, last, rfl⟩
  obtain ⟨tree, read, covers⟩ := told_runScope ran
  refine ⟨report, tree, rfl, by simp [read], fun reachable unseen => ?_⟩
  have covered := covers reachable fun seen => unseen (by simp [seen])
  simpa [first.ended, last.ended] using covered

end

theorem Task.keeps_disposed {task : Task} (other : task ≠ .dispose) (c : Controller) :
    (task.activity c).Keeps Engine.disposed := by
  have documents {α : Type} {x : Activity α} (about : x.AboutDocuments) : x.Keeps Engine.disposed :=
    about.keeps fun _ about e => (Engine.perform_aboutDocuments about e).2.2
  cases task with
  | run scope options flag =>
    refine Activity.Keeps.map ?_ _
    refine ⟨fun _ => rfl, fun disposed => ?_⟩
    cases disposed with
    | true => trivial
    | false =>
      refine (documents (aboutDocuments_ensureDiscovered c)).bind fun _ => ?_
      exact (Controller.keeps_turn scope options flag).comp fun core => core.2.2.2
  | cancel =>
    refine ⟨fun e => ?_, fun _ => trivial⟩
    simp only [Engine.perform]
    split <;> rfl
  | resolve id => exact (documents (aboutDocuments_resolve c id)).map _
  | reload => exact (documents (aboutDocuments_reload c)).map _
  | changed path => exact (documents (aboutDocuments_documentChanged c path)).map _
  | edited path source => exact (documents (aboutDocuments_documentEdited c path source)).map _
  | dispose => exact absurd rfl other

namespace Scene

variable {ι : Type} [DecidableEq ι] {c : Controller} {tasks : ι → Task} {s : Scene ι}

theorem Orderly.cancel (orderly : s.Orderly tasks) {k : ι}
    (waits : s.rest k = Task.cancel.activity c) (answers : Answers) :
    let s' := s.after (.turn k answers)
    ∃ active, s'.rest k = .done (.cancelled active) ∧
      (active = false → s'.engine = s.engine) ∧
      (active = true → ∃ j flag, (tasks j).flag? = some flag ∧ s.holder .runs = some j ∧
        s'.engine = s.engine.raise flag) := by
  intro s'
  have taken : s' = _ := after_cancelActive waits answers
  refine ⟨s.engine.active.isSome, by rw [taken, take_rest, Function.update_self]; rfl, ?_, ?_⟩
  · intro nobody
    have free : s.engine.active = none := by simpa using nobody
    simp [taken, Act.engine, Engine.perform, free]
  · intro somebody
    obtain ⟨flag, active⟩ := Option.isSome_iff_exists.1 somebody
    obtain ⟨j, own, inside⟩ := (orderly.slot flag).1 active
    refine ⟨j, flag, own, (orderly.guarded j).1 (Phase.holdsLock_of_isActive inside), ?_⟩
    simp [taken, Act.engine, Engine.perform, active]

theorem Recorded.covers (recorded : s.Recorded c tasks) {j : ι} {scope : Scope}
    {options : RunOptions} {flag : Flag} {reply : Task.Reply}
    (task : tasks j = .run scope options flag) (done : s.rest j = .done reply)
    (down : s.engine.isRaised flag = false) :
    (reply = .report (.error .disposed) ∧ s.engine.disposed = true) ∨
      ∃ report tree, reply = .report (.ok report) ∧ (j, .state .readTree tree) ∈ s.log ∧
        report.Covers (tree.plan scope options) (Act.ended (story j s.log)) := by
  have told := recorded.faithful j [] reply (by rw [done]; exact ⟨rfl, rfl⟩)
  rw [List.append_nil, task] at told
  obtain ⟨result, ran, rfl⟩ := (Activity.tells_map _ _ _ _).1 told
  rcases told_run ran with ⟨rfl, refused⟩ | ⟨report, tree, rfl, read, covers⟩
  · exact .inl ⟨rfl, recorded.truthful.refusals j (mem_story.1 refused).1⟩
  · have read := (mem_story.1 read).1
    refine .inr ⟨report, tree, rfl, read, covers (recorded.truthful.reads j tree read) ?_⟩
    intro seen
    have raised := (recorded.truthful.looks j flag true (mem_story.1 seen).1).2 rfl
    rw [down] at raised
    cases raised

/-- Any number of requests, with a flag of its own for each run, in any order of their steps: at most
one launch is in flight, and the launches of one run all come before or all after those of another. A
cancellation raises no flag but that of the run which holds the lock of runs, and answers that there
was one only if there was. A run whose flag has been raised begins at most the launch for which it had
found the flag down. A finished run whose flag was never raised reports the whole of its plan, unless
the controller had been disposed when it came. -/
theorem runs_isolated
    (separate : ∀ i j flag, (tasks i).flag? = some flag → (tasks j).flag? = some flag → i = j)
    {e : Engine} (idle : e.active = none) (reachable : e.tree.Reachable) (moves : List (Move ι)) :
    let s := (start c tasks e).play moves
    (∀ i j, s.inFlight i = true → s.inFlight j = true → i = j) ∧
    (∀ i j, i ≠ j → Precedes i j s.log ∨ Precedes j i s.log) ∧
    (∀ k answers, s.rest k = Task.cancel.activity c →
      let s' := s.after (.turn k answers)
      ∃ active, s'.rest k = .done (.cancelled active) ∧
        (active = false → s'.engine = s.engine) ∧
        (active = true → ∃ j flag, (tasks j).flag? = some flag ∧ s.holder .runs = some j ∧
          s'.engine = s.engine.raise flag ∧
          ∀ i other, i ≠ j → (tasks i).flag? = some other →
            s'.engine.isRaised other = s.engine.isRaised other)) ∧
    (∀ j flag, (tasks j).flag? = some flag → s.engine.isRaised flag = true → ∀ later,
      ∃ more, begun j (s.play later).log = begun j s.log ++ more ∧ more.length ≤ 1 ∧
        (more ≠ [] → HasLooked j flag s.log)) ∧
    (∀ j scope options flag reply, tasks j = .run scope options flag → s.rest j = .done reply →
      s.engine.isRaised flag = false →
        (reply = .report (.error .disposed) ∧ (e.disposed = true ∨ ∃ k, tasks k = .dispose)) ∨
        ∃ report tree, reply = .report (.ok report) ∧ (j, .state .readTree tree) ∈ s.log ∧
          report.Covers (tree.plan scope options) (Act.ended (story j s.log))) := by
  intro s
  have started := recorded_start c tasks idle reachable
  have recorded : s.Recorded c tasks := started.play moves
  have serial : s.Serial := (serial_start c tasks e).play started.orderly moves
  refine ⟨fun _ _ => recorded.orderly.inFlight_unique, serial.apart, ?cancel, ?spends, ?covers⟩
  case cancel =>
    intro k answers waits s'
    obtain ⟨active, answered, quiet, raises⟩ := recorded.orderly.cancel waits answers
    refine ⟨active, answered, quiet, fun some => ?_⟩
    obtain ⟨j, flag, own, holds, raised⟩ := raises some
    refine ⟨j, flag, own, holds, raised, fun i other different owns => ?_⟩
    have apart : other ≠ flag := by
      rintro rfl
      exact different (separate i j other owns own)
    rw [show s'.engine = _ from raised]
    simp [Engine.isRaised, Engine.raise, apart]
  case spends =>
    intro j flag own raised later
    obtain ⟨more, begins, paid⟩ := recorded.orderly.begins_at_most own raised later
    exact ⟨more, begins, recorded.owes own (Nat.le_of_add_right_le paid)⟩
  case covers =>
    intro j scope options flag reply task done down
    refine (recorded.covers task done down).imp (And.imp_right fun refused => ?_) id
    by_contra nobody
    rw [not_or, not_exists] at nobody
    have kept : s.engine.disposed = e.disposed :=
      play_keeps (fun _ _ => rfl) (fun i => (tasks i).keeps_disposed (nobody.2 i) c) moves
    exact nobody.1 (kept.symm.trans refused)

theorem runs_isolated_second_whole :
    let source := ":- begin_tests(u).\ntest(a).\ntest(b).\n"
    let tree := ((Document.scan (.ofString "/ws/a.pl") source).insertInto {}).tree
    let e : Engine := { tree, discovered := true }
    let c : Controller := { roots := [], settings := {} }
    let tasks : Fin 3 → Task := fun
      | 0 => .run .all {} 0
      | 1 => .run .all {} 1
      | 2 => .cancel
    let answers : Answers := fun
      | .enumerate _ => .ok []
      | .read _ => .error .notFound
      | .launch _ => .finished { exitCode := some 0, text := "" }
      | .notify _ => ()
      | .note _ => ()
    let turns (i : Fin 3) (count : Nat) := List.replicate count (Move.turn i answers)
    let moves := turns 0 14 ++ turns 1 6 ++ turns 2 1 ++ turns 0 30 ++ turns 1 30
    let s := (start c tasks e).play moves
    (∀ i j flag, (tasks i).flag? = some flag → (tasks j).flag? = some flag → i = j) ∧
      e.active = none ∧ e.tree.Reachable ∧ s.engine.raised = [0] ∧
      begun 0 s.log = [.forTest (.ofString "/ws/a.pl") "u" "a"] ∧
      ∃ report tree, s.rest 1 = .done (.report (.ok report)) ∧ report.results.length = 2 ∧
        (1, .state .readTree tree) ∈ s.log ∧ report.Covers (tree.plan .all {}) (Act.ended (story 1 s.log)) := by
  intro source tree e c tasks answers turns moves s
  have own : ∀ i j, (tasks i).flag? = (tasks j).flag? → (tasks i).flag? ≠ none → i = j := by decide
  have separate : ∀ i j flag, (tasks i).flag? = some flag → (tasks j).flag? = some flag → i = j :=
    fun i j flag mine yours => own i j (mine.trans yours.symm) (by simp [mine])
  have reachable : e.tree.Reachable := .insertInto _ .empty
  have raised : s.engine.raised = [0] := by decide +kernel
  have first : begun 0 s.log = [.forTest (.ofString "/ws/a.pl") "u" "a"] := by decide +kernel
  have finished : ∃ reply, s.rest 1 = .done reply := by decide +kernel
  have ended : (Act.ended (story 1 s.log)).length = 2 := by decide +kernel
  refine ⟨separate, rfl, reachable, raised, first, ?_⟩
  have down : s.engine.isRaised 1 = false := by simp [Engine.isRaised, raised]
  clear_value moves
  obtain ⟨reply, done⟩ := finished
  obtain ⟨-, -, -, -, covers⟩ := runs_isolated (c := c) separate (e := e) rfl reachable moves
  have calm : ∀ k, tasks k ≠ .dispose := by simp [tasks, Fin.forall_fin_succ]
  have live : ¬ (e.disposed = true ∨ ∃ k, tasks k = .dispose) := by
    rintro (disposed | ⟨k, task⟩)
    · cases disposed
    · exact calm k task
  obtain ⟨report, tree, rfl, read, covers⟩ :=
    (covers 1 .all {} 1 reply rfl done down).resolve_left fun refused => live refused.2
  exact ⟨report, tree, done, covers.length_results.trans ended, read, covers⟩

end Scene

end TestExplorer
