import TestExplorer.CommandLine.Commands
import TestExplorer.FileSystem.Layout
import TestExplorer.Proofs.Requests
import TestExplorer.Proofs.Run.Report

set_option autoImplicit false

namespace TestExplorer

variable {σ : Type}

/-! ## What a run comes to -/

section

variable (h : Activity.Host σ) (s : Engine × σ) (scope : Scope) (options : RunOptions) (flag : Flag)

theorem Report.failed_recordAll {items : List WorkItem} {outcomes : List Outcome}
    (bounded : outcomes.length ≤ items.length) :
    (({} : Report).recordAll (items.zip outcomes)).failed =
      outcomes.countP (!·.isPassed) := by
  let full := ({} : Report).recordAll (items.zip outcomes)
  obtain ⟨passed, total, -⟩ : full.Counts := Counts.recordAll (by simp [Counts]) _
  have verdicts : full.results.map (·.outcome) = outcomes := by
    rw [show full.results = _ from recordAll_results _ _, List.map_append, List.map_map]
    exact List.map_snd_zip bounded
  have number : full.results.length = outcomes.length := by rw [← verdicts, List.length_map]
  have good : full.passed = outcomes.countP (·.isPassed) := by
    rw [passed, ← verdicts, List.countP_map]
    rfl
  have split := List.length_eq_countP_add_countP (·.isPassed) (l := outcomes)
  have bad : outcomes.countP (!·.isPassed) = full.failed := by
    simp only [Bool.not_eq_true, Bool.decide_eq_false] at split
    omega
  exact bad.symm

theorem runScope_outcome (reachable : s.1.tree.Reachable) :
    let items := s.1.tree.plan scope options
    let run := runScope scope options flag
    let ends := Activity.launches h (run.steps h s)
    let report := (run.exec h s).1
    ends.length ≤ items.length ∧ ends.map (·.1) = (items.take ends.length).map (·.invocation) ∧
      report.failed = ends.countP (!·.2.outcome.isPassed) ∧
      report.cancelled = decide (ends.length < items.length) := by
  intro items run ends report
  have stands := Session.stands_ofPlan (Tree.nodup_plan reachable.wellFormed scope options)
  obtain ⟨reported, parts⟩ := runScope_parts options flag h s scope
  let noted := (h (.note (s.1.tree.unknownIn scope)) s).2
  let begun := (h (.notify (.runStart items.length)) noted).2
  have all : ends =
      Activity.launches h ((runItems options flag items (.ofPlan items) {}).steps h begun) := by
    simp [ends, run, parts, begun, noted, items]
  obtain ⟨bounded, invocations, -, recorded⟩ := runItems_report options flag h begun stands {}
  rw [← all] at bounded invocations recorded
  refine ⟨bounded, invocations, ?failed, ?cancelled⟩
  case failed =>
    rw [show report = _ from reported]
    simp only [items, begun, noted, recorded] at *
    rw [Report.failed_recordAll (by simpa using bounded), List.countP_map]
    rfl
  case cancelled =>
    rw [show report = _ from reported]
    simp [items, begun, noted, recorded]

-- A run that nobody interrupts reaches all of its plan, unless it stops at a failure.
theorem runScope_completes (reachable : s.1.tree.Reachable) (clear : s.1.isRaised flag = false) :
    let steps := (runScope scope options flag).steps h s
    Activity.LeavesFlag h flag steps →
      (options.stopOnFailure → ∀ launch ∈ Activity.launches h steps, launch.2.outcome.isPassed) →
        (Activity.launches h steps).length = (s.1.tree.plan scope options).length := by
  intro steps leaves goes
  let items := s.1.tree.plan scope options
  have stands := Session.stands_ofPlan (Tree.nodup_plan reachable.wellFormed scope options)
  obtain ⟨-, parts⟩ := runScope_parts options flag h s scope
  let noted := (h (.note (s.1.tree.unknownIn scope)) s).2
  let begun := (h (.notify (.runStart items.length)) noted).2
  let loop := runItems options flag items (.ofPlan items) {}
  have all : Activity.launches h steps = Activity.launches h (loop.steps h begun) := by
    simp [steps, parts, loop, begun, noted, items]
  have inside : loop.steps h begun ⊆ steps := by
    rw [show steps = _ from parts]
    exact List.subset_append_of_subset_right _ (List.subset_append_left _ _)
  have clearNoted : noted.1.isRaised flag = false := leaves _ _ (by simp [steps, parts]) clear
  have clearBegun : begun.1.isRaised flag = false :=
    leaves _ _ (by simp [steps, parts, noted, items]) clearNoted
  rw [all] at goes ⊢
  exact runItems_completes options flag h begun stands {} clearBegun (leaves.mono inside) goes

end

/-! ## Discovery before a run -/

namespace Activity

variable {α : Type} {h : Host σ} {s : Engine × σ} {flag : Flag} {x : Activity α}

theorem AboutDocuments.launches (about : x.AboutDocuments) (h : Host σ) (s : Engine × σ) :
    Activity.launches h (x.steps h s) = [] := by
  induction x generalizing s with
  | done a => rfl
  | state action next ih => exact ih _ (about.2 _) _
  | host action next ih =>
    have later := ih _ (about.2 (h action s).1) (h action s).2
    cases action with
    | launch invocation => exact about.1.elim
    | _ => exact later

theorem AboutDocuments.clear (about : x.AboutDocuments)
    (leaves : LeavesFlag h flag (x.steps h s)) (down : s.1.isRaised flag = false) :
    (x.exec h s).2.1.isRaised flag = false := by
  induction x generalizing s with
  | done a => exact down
  | state action next ih =>
    obtain ⟨-, raised, -⟩ := Engine.perform_aboutDocuments about.1 s.1
    have same : (s.1.perform action).2.isRaised flag = s.1.isRaised flag := by
      rw [Engine.isRaised, raised]
      rfl
    exact ih _ (about.2 _) (leaves.mono (List.subset_cons_self _ _)) (same ▸ down)
  | host action next ih =>
    exact ih _ (about.2 _) (leaves.mono (List.subset_cons_self _ _))
      (leaves action s List.mem_cons_self down)

end Activity

theorem Controller.reload_ready {h : Activity.Host σ}
    (keeps : ∀ action s, (h action s).2.1.core = s.1.core) (c : Controller) {s : Engine × σ}
    (live : s.1.disposed = false) :
    (∃ summary, (c.reload.exec h s).1 = .ok summary) ∧
      (c.reload.exec h s).2.1.discovered = true ∧ (c.reload.exec h s).2.1.disposed = false := by
  have disposed : c.discoverWorkspace.Keeps Engine.disposed :=
    (aboutDocuments_discoverWorkspace c).keeps fun _ about e =>
      (Engine.perform_aboutDocuments about e).2.2
  have found : (c.discoverWorkspace.exec h s).2.1.disposed = false :=
    (disposed.exec h s fun action s => congrArg (·.2.2.2) (keeps action s)).trans live
  have done : c.reload.exec h s = (.ok (c.discoverWorkspace.exec h s).1,
      ({ (c.discoverWorkspace.exec h s).2.1 with discovered := true },
        (c.discoverWorkspace.exec h s).2.2)) := by
    simp [Controller.reload, Controller.live, Engine.perform, live]
  rw [done]
  exact ⟨⟨_, rfl⟩, rfl, found⟩

theorem Controller.run_parts (h : Activity.Host σ) (c : Controller) (scope : Scope)
    (options : RunOptions) (flag : Flag) {s : Engine × σ} (live : s.1.disposed = false)
    (known : s.1.discovered = true) :
    let begun : Engine × σ := ({ s.1 with active := some flag }, s.2)
    let run := runScope scope options flag
    ((c.run scope options flag).exec h s).1 = .ok (run.exec h begun).1 ∧
      ∃ before after,
        (c.run scope options flag).steps h s = before ++ (run.steps h begun ++ after) ∧
          Activity.launches h before = [] ∧ Activity.launches h after = [] := by
  intro begun run
  let ended := (run.exec h begun).2
  have exec : (c.run scope options flag).exec h s =
      (.ok (run.exec h begun).1, ({ ended.1 with active := none }, ended.2)) := by
    simp [Controller.run, Controller.live, Controller.ensureDiscovered, Engine.perform, live, known,
      begun, run, ended]
  have steps : (c.run scope options flag).steps h s =
      [.state .isDisposed s, .state (.acquire .discovery) s, .state .isDiscovered s,
        .state (.release .discovery) s, .state (.acquire .runs) s,
        .state (.setActive (some flag)) s] ++
      (run.steps h begun ++ [.state (.setActive none) ended,
        .state (.release .runs) ({ ended.1 with active := none }, ended.2)]) := by
    simp [Controller.run, Controller.live, Controller.ensureDiscovered, Engine.perform, live, known,
      begun, run, ended]
  exact ⟨by rw [exec], _, _, steps, rfl, rfl⟩

theorem Controller.launches_dispose (h : Activity.Host σ) (s : Engine × σ) :
    Activity.launches h (dispose.steps h s) = [] := by
  cases disposed : s.1.disposed <;> simp [dispose, Engine.perform, disposed]

/-! ## The command -/

namespace CommandLine

theorem core_signal (flag : Flag) (s : Engine × Console) (n : Nat) :
    (Console.signal flag s n).1.core = s.1.core := by
  unfold Console.signal
  split
  split
  next => rfl
  next => split <;> rfl

theorem frontend_keeps [Walker] [Processes] (site : Site) (config : Config) (action : HostAction)
    (s : Engine × Console) : ((frontend site config).host action s).2.1.core = s.1.core := by
  cases action with
  | launch invocation =>
    exact List.foldlRecOn (motive := fun after : Engine × Console => after.1.core = s.1.core) _ _
      rfl fun after same n _ => (core_signal runFlag after n).trans same
  | _ => rfl

section

variable {h : Activity.Host Console} (c : Controller) (request : Request) {scope : Scope}

theorem runSelected_parts (keeps : ∀ action s, (h action s).2.1.core = s.1.core)
    (selected : (c.reload.exec h ({}, request.console)).2.1.tree.select request.suites
      request.tests = .ok scope) :
    let s : Engine × Console := ({}, request.console)
    let found := (c.reload.exec h s).2
    let begun : Engine × Console := ({ found.1 with active := some runFlag }, found.2)
    let run := runScope scope request.options runFlag
    ((runSelected c request runFlag).exec h s).1 = .ok (run.exec h begun).1 ∧
      ∃ between after,
        (runSelected c request runFlag).steps h s =
          c.reload.steps h s ++ (between ++ (run.steps h begun ++ after)) ∧
        Activity.launches h between = [] ∧ Activity.launches h after = [] := by
  intro s found begun run
  obtain ⟨⟨summary, reloaded⟩, known, live⟩ := c.reload_ready keeps (s := s) rfl
  obtain ⟨answer, before, after, steps, quiet, quiet'⟩ :=
    c.run_parts h scope request.options runFlag live known
  let request' := c.run scope request.options runFlag
  have snapshot : Controller.snapshot.exec h found = (found.1.tree, found) := rfl
  have exec : ((runSelected c request runFlag).exec h s).1 =
      (request'.exec h found).1.mapError .engine := by
    simp [runSelected, reloaded, snapshot, found, selected, s, request']
  have parts : (runSelected c request runFlag).steps h s =
      c.reload.steps h s ++ (Controller.snapshot.steps h found ++
        (request'.steps h found ++ Controller.dispose.steps h (request'.exec h found).2)) := by
    simp [runSelected, reloaded, snapshot, found, selected, s, request']
  refine ⟨by rw [exec, answer]; rfl, Controller.snapshot.steps h found ++ before,
    after ++ Controller.dispose.steps h (request'.exec h found).2, ?_, ?_, ?_⟩
  · rw [parts, show request'.steps h found = _ from steps]
    simp only [List.append_assoc]
    rfl
  · simp [quiet, Controller.snapshot]
  · simp [quiet', Controller.launches_dispose]

theorem runOn_answered {report : Report}
    (answer : ((runSelected c request runFlag).exec h ({}, request.console)).1 = .ok report) :
    ∃ completion, runOn h c request = .ok completion ∧
      completion.exitCode =
        if ((runSelected c request runFlag).exec h ({}, request.console)).2.2.killed then none
        else some (exitCode report) := by
  unfold runOn
  simp only [answer]
  cases ((runSelected c request runFlag).exec h ({}, request.console)).2.2.killed with
  | true => exact ⟨_, rfl, rfl⟩
  | false => exact ⟨_, rfl, rfl⟩

theorem exitCode_cases (report : Report) :
    (0 < report.failed → exitCode report = 1) ∧
      (report.failed = 0 → report.cancelled = true → exitCode report = 130) ∧
      (report.failed = 0 → report.cancelled = false → exitCode report = 0) := by
  unfold exitCode
  refine ⟨fun failed => if_pos failed, fun none cancelled => ?_, fun none whole => ?_⟩
  · simp [none, cancelled]
  · simp [none, whole]

def AllPassed (ends : List (Invocation × LaunchResult)) : Prop :=
  ∀ launch ∈ ends, launch.2.outcome.isPassed

/-- What an exit code says of the launches of a plan. -/
structure Tells (plan : List WorkItem) (ends : List (Invocation × LaunchResult)) (code : Nat) :
    Prop where
  success : code = 0 ↔ ends.length = plan.length ∧ AllPassed ends
  failure : code = 1 ↔ ∃ launch ∈ ends, ¬ launch.2.outcome.isPassed
  interrupted : code = 130 ↔ AllPassed ends ∧ ends.length < plan.length
  no_other : code = 0 ∨ code = 1 ∨ code = 130

theorem tells_exitCode {plan : List WorkItem} {ends : List (Invocation × LaunchResult)}
    {report : Report} (bounded : ends.length ≤ plan.length)
    (failed : report.failed = ends.countP (!·.2.outcome.isPassed))
    (cancelled : report.cancelled = decide (ends.length < plan.length)) :
    Tells plan ends (exitCode report) := by
  obtain ⟨one, interrupted, zero⟩ := exitCode_cases report
  have bad : (∃ launch ∈ ends, ¬ launch.2.outcome.isPassed) ↔ ¬ AllPassed ends := by
    simp [AllPassed]
  by_cases good : AllPassed ends
  case neg =>
    have some : 0 < report.failed := by
      rw [failed, List.countP_pos_iff]
      simpa using bad.2 good
    have code := one some
    constructor <;> simp only [code, bad, good] <;> simp
  case pos =>
    have none : report.failed = 0 := by
      rw [failed, List.countP_eq_zero]
      simpa [AllPassed] using good
    by_cases short : ends.length < plan.length
    · have code := interrupted none (by simpa [cancelled] using short)
      have fewer : ends.length ≠ plan.length := by omega
      constructor <;> simp only [code, bad, good, short, fewer] <;> simp
    · have code := zero none (by simpa [cancelled] using short)
      have all : ends.length = plan.length := by omega
      constructor <;> simp only [code, bad, good, all] <;> simp

/-- However launches end and whenever flags are raised, the exit code of a run with a valid selection
tells whether a test failed, and if none did, whether the plan was reached to its end. Without an
interruption it is never 130. Only a deadly signal leaves no code. -/
theorem runOn_exitCode (keeps : ∀ action s, (h action s).2.1.core = s.1.core)
    (selected : (c.reload.exec h ({}, request.console)).2.1.tree.select request.suites
      request.tests = .ok scope) :
    let start : Engine × Console := ({}, request.console)
    let plan := (c.reload.exec h start).2.1.tree.plan scope request.options
    let steps := (runSelected c request runFlag).steps h start
    let ends := Activity.launches h steps
    let killed := ((runSelected c request runFlag).exec h start).2.2.killed
    ends.map (·.1) = (plan.take ends.length).map (·.invocation) ∧
      ∃ completion, runOn h c request = .ok completion ∧
        (completion.exitCode = none ↔ killed = true) ∧
        ∀ code, completion.exitCode = some code → Tells plan ends code ∧
          (Activity.LeavesFlag h runFlag steps → code ≠ 130) := by
  intro start plan steps ends killed
  let found := (c.reload.exec h start).2
  let begun : Engine × Console := ({ found.1 with active := some runFlag }, found.2)
  let run := runScope scope request.options runFlag
  let report := (run.exec h begun).1
  obtain ⟨answer, between, after, parts, quiet, quiet'⟩ := runSelected_parts c request keeps selected
  have parts : steps = c.reload.steps h start ++ (between ++ (run.steps h begun ++ after)) := parts
  have answer : ((runSelected c request runFlag).exec h start).1 = .ok report := answer
  have launched : ends = Activity.launches h (run.steps h begun) := by
    simp [ends, parts, quiet, quiet', (aboutDocuments_reload c).launches]
  have reachable : begun.1.tree.Reachable := Activity.exec_reachable keeps c.reload .empty
  obtain ⟨bounded, invocations, failed, cancelled⟩ :=
    runScope_outcome h begun scope request.options runFlag reachable
  rw [← launched] at bounded invocations failed cancelled
  have tells : Tells plan ends (exitCode report) := tells_exitCode bounded failed cancelled
  have uninterrupted (leaves : Activity.LeavesFlag h runFlag steps) : exitCode report ≠ 130 := by
    intro stopped
    obtain ⟨good, short⟩ := tells.interrupted.1 stopped
    have first : c.reload.steps h start ⊆ steps := by
      rw [parts]
      exact List.subset_append_left _ _
    have inside : run.steps h begun ⊆ steps := by
      rw [parts]
      exact fun step member => by simp [member]
    have clear : begun.1.isRaised runFlag = false :=
      (aboutDocuments_reload c).clear (leaves.mono first) rfl
    have complete := runScope_completes h begun scope request.options runFlag reachable clear
      (leaves.mono inside) fun _ => launched ▸ good
    rw [← launched] at complete
    exact absurd complete (Nat.ne_of_lt short)
  refine ⟨invocations, ?_⟩
  obtain ⟨completion, completed, code⟩ := runOn_answered c request answer
  have code : completion.exitCode = if killed then none else some (exitCode report) := code
  refine ⟨completion, completed, by simp [code], ?_⟩
  intro shown exit
  obtain rfl : exitCode report = shown := by
    rw [code] at exit
    split at exit <;> simp_all
  exact ⟨tells, uninterrupted⟩

end

theorem runOn_exitCode_interrupted :
    let site := FileSystem.layout (.ofString "/ws") [(.ofString "a.pl",
      .file (.bytes (Text.toBytes ":- begin_tests(u).\ntest(a).\ntest(b).\n")))]
    let interpreter : InterpreterSettings := { program := "sh", args := ["-c", "kill -INT $PPID"] }
    let host := (frontend site { interpreter }).host
    let c : Controller := { roots := [.ofString "/ws"], settings := {} }
    let request : Request := { verb := .run }
    let tree := (c.reload.exec host ({}, request.console)).2.1.tree
    let ends := Activity.launches host ((runSelected c request runFlag).steps host ({}, request.console))
    (∀ action s, (host action s).2.1.core = s.1.core) ∧
      tree.select request.suites request.tests = .ok .all ∧
      (runOn host c request).map (·.exitCode) = .ok (some 130) ∧
      Tells (tree.plan .all request.options) ends 130 := by
  intro site interpreter host c request tree ends
  have selected : tree.select request.suites request.tests = .ok .all := rfl
  have interrupted : (runOn host c request).map (·.exitCode) = .ok (some 130) := by decide +kernel
  obtain ⟨-, completion, completed, -, tells⟩ :=
    runOn_exitCode c request (frontend_keeps site { interpreter }) selected
  rw [show runOn host c request = .ok completion from completed] at interrupted
  exact ⟨frontend_keeps site { interpreter }, selected, by rw [completed]; exact interrupted,
    (tells 130 (Except.ok.inj interrupted)).1⟩

end CommandLine

end TestExplorer
