import TestExplorer.Proofs.Interleaving.Record
import TestExplorer.Proofs.Run.Progress
import TestExplorer.Proofs.Server.Publishing
import TestExplorer.Server.Forwarding

set_option autoImplicit false

namespace TestExplorer

theorem Activity.reachable_of_read {α σ : Type} {h : Activity.Host σ}
    (keeps : ∀ action s, (h action s).2.1.core = s.1.core) (x : Activity α) {s : Engine × σ}
    (reachable : s.1.tree.Reachable) {tree : Tree}
    (read : .state .readTree tree ∈ (x.steps h s).map (Step.told h)) : tree.Reachable := by
  induction x generalizing s with
  | done a => cases read
  | state action next ih =>
    rcases List.mem_cons.1 read with now | later
    · cases now
      exact reachable
    · exact ih _ (Engine.reachable_perform reachable action) later
  | host action next ih =>
    rcases List.mem_cons.1 read with now | later
    · cases now
    · have same : (h action s).2.1.tree = s.1.tree := congrArg Prod.fst (keeps action s)
      exact ih _ (same ▸ reachable) later

open Server (Notification progressOf?)

def progressOf (acts : List Act) : List Notification :=
  (Act.events acts).filterMap progressOf?

theorem progressOf_append (before later : List Act) :
    progressOf (before ++ later) = progressOf before ++ progressOf later := by
  simp [progressOf]

theorem progressOf_singleton (act : Act) :
    progressOf [act] = (act.event?.bind progressOf?).toList := by
  cases event : act.event? with
  | none => simp [progressOf, Act.events, event]
  | some e => cases told : progressOf? e <;> simp [progressOf, Act.events, event, told]

theorem progressOf_story {ι : Type} [DecidableEq ι] (i j : ι) (log : List (ι × Act)) (act : Act) :
    progressOf (Scene.story i (log ++ [(j, act)])) = progressOf (Scene.story i log) ++
      if j = i then (act.event?.bind progressOf?).toList else [] := by
  rw [Scene.story, List.filterMap_append, ← Scene.story, progressOf_append]
  by_cases own : j = i
  · cases beginning : act.isBeginning with
    | true =>
      have silent : act.event? = none := by cases act <;> first | rfl | cases beginning
      simp [own, beginning, silent, progressOf]
    | false => simp [own, beginning, progressOf_singleton]
  · simp [own, progressOf]

def progressOfResult (result : TestResult) : List Notification :=
  let ending : List (String × Json) := match result.outcome with
    | .passed => [("outcome", .string "passed")]
    | .failed message => [("outcome", .string "failed"), ("message", .string message)]
  [{ method := "prologtest/testStarted", params := .object [("id", .string result.id.text)] },
    { method := "prologtest/testFinished"
      params := .object (("id", .string result.id.text) :: ending) }]

theorem progress_of_told {report : Report} {planned : Nat} {events : List RunEvent}
    (told : report.IsToldBy planned events) :
    events.filterMap progressOf? = report.results.flatMap progressOfResult := by
  obtain ⟨done, results, rfl⟩ := told
  have one (item : WorkItem) (outcome : Outcome) :
      [RunEvent.started item, .finished item outcome].filterMap progressOf? =
        progressOfResult { id := item.id, suite := item.suite, name := item.test, outcome } := rfl
  rw [results, List.flatMap_map, List.filterMap_cons_none rfl, List.filterMap_append,
    List.filterMap_flatMap, List.filterMap_cons_none rfl, List.filterMap_nil, List.append_nil]
  exact List.flatMap_congr fun (item, outcome) _ => one item outcome

def Sent.report? : Sent → Option Report
  | .answer (.report (.ok report)) => some report
  | _ => none

theorem Sent.report?_eq_some_iff {sent : Sent} {report : Report} :
    sent.report? = some report ↔ sent = .answer (.report (.ok report)) := by
  unfold report?
  split
  next known => simp
  next other => simpa using fun same => other report same

namespace Channel

/-- What has been sent is what has been reported, up to what is still on its way. After the answer
nothing is. -/
structure Accounts (ch : Channel) (rest : Activity Task.Reply) (reported : List Notification)
    (sent : List Sent) : Prop where
  finished : ch.delivery ≠ .running → ∃ reply, rest = .done reply
  left : ch.forwarder = .gone → ch.delivery ≠ .running ∧ ch.waiting = []
  unanswered : ch.delivery ≠ .answered →
    sent ++ ch.pending.map .progress = reported.map .progress
  answered : ch.delivery = .answered → ch.forwarder = .gone ∧
    ∃ reply, rest = .done reply ∧ sent = reported.map .progress ++ [.answer reply]

namespace Accounts

variable {ch : Channel} {rest : Activity Task.Reply} {reported : List Notification}
  {sent : List Sent} (accounts : ch.Accounts rest reported sent)

include accounts

theorem running (busy : ∀ reply, rest ≠ .done reply) : ch.delivery = .running := by
  by_contra finished
  obtain ⟨reply, done⟩ := accounts.finished finished
  exact busy reply done

theorem push (busy : ∀ reply, rest ≠ .done reply) (act : Act) (later : Activity Task.Reply) :
    (ch.push act).Accounts later (reported ++ (act.event?.bind progressOf?).toList) sent := by
  have running := accounts.running busy
  have whole := accounts.unanswered (by simp [running])
  have stays : (ch.push act).delivery = .running := running
  refine ⟨absurd stays, fun left => ?_, fun _ => ?_, fun answered => ?_⟩
  · exact absurd running (accounts.left left).1
  · rw [List.map_append, ← whole]
    simp [pending, Channel.push]
  · simp [stays] at answered

theorem receive : ch.receive.Accounts rest reported sent := by
  obtain ⟨finished, left, unanswered, answered⟩ := accounts
  unfold Channel.receive
  split
  next n later idle waits =>
    refine ⟨finished, nofun, fun awaited => ?_, fun done => ?_⟩
    · simpa [pending, Forwarder.load, idle, waits] using unanswered awaited
    · simp [idle] at answered
      exact absurd done answered
  next idle empty =>
    split
    next => exact ⟨finished, left, unanswered, answered⟩
    next closed =>
      refine ⟨finished, fun _ => ⟨closed, empty⟩, fun awaited => ?_, fun done => ?_⟩
      · simpa [pending, Forwarder.load, idle, empty] using unanswered awaited
      · exact ⟨rfl, (answered done).2⟩
  next => exact ⟨finished, left, unanswered, answered⟩

theorem close {reply : Task.Reply} (done : rest = .done reply) (running : ch.delivery = .running) :
    ({ ch with delivery := .closed } : Channel).Accounts rest reported sent where
  finished _ := ⟨reply, done⟩
  left gone := ⟨nofun, (accounts.left gone).2⟩
  unanswered _ := accounts.unanswered (by simp [running])
  answered := nofun

theorem send {n : Notification} (carries : ch.forwarder = .carrying n) :
    ({ ch with forwarder := .idle } : Channel).Accounts rest reported (sent ++ [.progress n]) where
  finished := accounts.finished
  left := nofun
  unanswered awaited := by
    rw [← accounts.unanswered awaited]
    simp [pending, Forwarder.load, carries]
  answered done := by simpa [carries] using (accounts.answered done).1

theorem answer {reply : Task.Reply} (done : rest = .done reply) (closed : ch.delivery = .closed)
    (gone : ch.forwarder = .gone) :
    ({ ch with delivery := .answered } : Channel).Accounts rest reported
      (sent ++ [.answer reply]) where
  finished _ := ⟨reply, done⟩
  left _ := ⟨nofun, (accounts.left gone).2⟩
  unanswered := absurd rfl
  answered _ := by
    have whole := accounts.unanswered (by simp [closed])
    have empty : ch.pending = [] := by simp [pending, Forwarder.load, gone, (accounts.left gone).2]
    rw [empty, List.map_nil, List.append_nil] at whole
    exact ⟨gone, reply, done, by rw [whole]⟩

end Accounts

end Channel

namespace Traffic

variable {ι : Type} [DecidableEq ι] {c : Controller} {tasks : ι → Task} {i : ι} {t : Traffic ι}

def Accounted (i : ι) (t : Traffic ι) : Prop :=
  (t.channel i).Accounts (t.scene.rest i) (progressOf (Scene.story i t.scene.log)) (sentOf i t.sent)

theorem sentOf_concat (i j : ι) (before : List (ι × Sent)) (sent : Sent) :
    sentOf i (before ++ [(j, sent)]) = sentOf i before ++ if j = i then [sent] else [] := by
  by_cases own : j = i <;> simp [sentOf, own]

namespace Accounted

variable (accounted : t.Accounted i)

include accounted

theorem request (move : Move ι) : (t.after (.request move)).Accounted i := by
  cases move with
  | raise flag => exact accounted
  | turn j answers =>
    unfold Accounted at accounted ⊢
    dsimp only [Traffic.after, reporting, Scene.after]
    cases taken : t.scene.next j answers with
    | none => exact accounted
    | some step =>
      obtain ⟨act, rest⟩ := step
      dsimp only
      rw [Scene.take_log, Scene.take_rest, progressOf_story]
      by_cases own : j = i
      · subst own
        have busy (reply : Task.Reply) : t.scene.rest j ≠ .done reply :=
          fun done => by simp [Scene.next, done] at taken
        simpa using accounted.push busy act rest
      · simpa [own, Ne.symm own] using accounted

theorem onChannel (j : ι) {change : Channel → Channel}
    (kept : j = i → (change (t.channel i)).Accounts (t.scene.rest i)
      (progressOf (Scene.story i t.scene.log)) (sentOf i t.sent)) :
    (t.onChannel j change).Accounted i := by
  unfold Accounted at accounted ⊢
  dsimp only [Traffic.onChannel]
  by_cases own : j = i
  · subst own
    simpa using kept rfl
  · simpa [Ne.symm own] using accounted

theorem sending (j : ι) {change : Channel → Channel} {sent : Sent}
    (kept : j = i → (change (t.channel i)).Accounts (t.scene.rest i)
      (progressOf (Scene.story i t.scene.log)) (sentOf i t.sent ++ [sent])) :
    ((t.onChannel j change).sending j sent).Accounted i := by
  unfold Accounted at accounted ⊢
  dsimp only [Traffic.sending, Traffic.onChannel]
  rw [sentOf_concat]
  by_cases own : j = i
  · subst own
    simpa using kept rfl
  · simpa [own, Ne.symm own] using accounted

theorem after (turn : Turn ι) : (t.after turn).Accounted i := by
  cases turn with
  | request move => exact accounted.request move
  | receive j =>
    refine accounted.onChannel j ?_
    exact fun _ => accounted.receive
  | close j =>
    dsimp only [Traffic.after]
    split
    next reply done running =>
      refine accounted.onChannel j ?_
      rintro rfl
      exact accounted.close done running
    next => exact accounted
  | send j =>
    dsimp only [Traffic.after]
    split
    next n carries =>
      refine accounted.sending j ?_
      rintro rfl
      exact accounted.send carries
    next => exact accounted
  | answer j =>
    dsimp only [Traffic.after]
    split
    next reply done closed gone =>
      refine accounted.sending j ?_
      rintro rfl
      exact accounted.answer done closed gone
    next => exact accounted

end Accounted

theorem accounted_start {scope : Scope} {options : RunOptions} {flag : Flag} (c : Controller)
    (task : tasks i = .run scope options flag) (e : Engine) : (start c tasks e).Accounted i := by
  have channel : (start c tasks e).channel i = { forwarder := .idle } := by
    simp [start, Channel.of, task, Task.flag?]
  unfold Accounted
  rw [channel]
  exact ⟨absurd rfl, nofun, fun _ => rfl, nofun⟩

theorem scene_after (t : Traffic ι) (turn : Turn ι) :
    ∃ moves, (t.after turn).scene = t.scene.play moves := by
  cases turn with
  | request move => exact ⟨[move], rfl⟩
  | receive j => exact ⟨[], rfl⟩
  | _ =>
    dsimp only [after]
    split <;> exact ⟨[], rfl⟩

theorem recorded_play (recorded : t.scene.Recorded c tasks) (turns : List (Turn ι)) :
    (t.play turns).scene.Recorded c tasks := by
  refine List.foldlRecOn (motive := fun t : Traffic ι => t.scene.Recorded c tasks) turns _
    recorded ?_
  intro t recorded turn _
  obtain ⟨moves, played⟩ := t.scene_after turn
  rw [played]
  exact recorded.play moves

theorem accounted_play (accounted : t.Accounted i) (turns : List (Turn ι)) :
    (t.play turns).Accounted i :=
  List.foldlRecOn (motive := Accounted i) turns _ accounted fun _ accounted turn _ =>
    accounted.after turn

/-- Any number of requests, with a forwarder for each run, in any order of their turns. Where a run
is answered with a report, what has been sent for it is the start and the end of each test that the
report lists, in the order of the report, and after all of them the answer. -/
theorem sent_of_answered_run {e : Engine} (idle : e.active = none) (reachable : e.tree.Reachable)
    (turns : List (Turn ι)) {scope : Scope} {options : RunOptions} {flag : Flag}
    (task : tasks i = .run scope options flag) {report : Report}
    (answered : (i, .answer (.report (.ok report))) ∈ ((start c tasks e).play turns).sent) :
    sentOf i ((start c tasks e).play turns).sent =
      (report.results.flatMap progressOfResult).map .progress ++
        [.answer (.report (.ok report))] := by
  have begins : (start c tasks e).scene.Recorded c tasks :=
    Scene.recorded_start c tasks idle reachable
  have recorded := recorded_play begins turns
  have accounted := accounted_play (accounted_start c task e) turns
  generalize (start c tasks e).play turns = t at answered recorded accounted
  have inside : .answer (.report (.ok report)) ∈ sentOf i t.sent :=
    List.mem_filterMap.2 ⟨_, answered, by simp⟩
  have ends : (t.channel i).delivery = .answered := by
    by_contra unanswered
    have whole := accounted.unanswered unanswered
    have among : .answer (.report (.ok report)) ∈
        (progressOf (Scene.story i t.scene.log)).map Sent.progress :=
      whole ▸ List.mem_append_left _ inside
    simp at among
  obtain ⟨-, reply, done, whole⟩ := accounted.answered ends
  obtain rfl : reply = .report (.ok report) := by
    rw [whole] at inside
    simpa [eq_comm] using inside
  have told := recorded.faithful i [] _ (by rw [done]; exact ⟨rfl, rfl⟩)
  rw [List.append_nil, task] at told
  obtain ⟨result, ran, same⟩ := (Activity.tells_map _ _ _ _).1 told
  obtain rfl : result = .ok report := Task.Reply.report.inj same
  obtain ⟨tree, read, events⟩ := told_run_events ran
  have plan := recorded.truthful.reads i tree (Scene.mem_story.1 read).1
  rw [whole, progressOf, progress_of_told (events plan)]

theorem sent_of_answered_run_cancelled :
    let source := ":- begin_tests(u).\ntest(a).\ntest(b).\n"
    let tree := ((Document.scan (.ofString "/ws/a.pl") source).insertInto {}).tree
    let e : Engine := { tree, discovered := true }
    let c : Controller := { roots := [], settings := {} }
    let tasks : Fin 2 → Task := fun
      | 0 => .run .all {} 0
      | 1 => .cancel
    let answers : Answers := fun
      | .enumerate _ => .ok []
      | .read _ => .error .notFound
      | .launch _ => .finished { exitCode := some 0, text := "" }
      | .notify _ => ()
      | .note _ => ()
    let requests (i : Fin 2) (count : Nat) := List.replicate count (Turn.request (.turn i answers))
    let turns := requests 0 14 ++ [.receive 0, .close 0] ++ requests 1 1 ++ requests 0 30 ++
      [.close 0, .answer 0, .send 0, .receive 0, .answer 0, .send 0, .receive 0, .answer 0]
    let t := (start c tasks e).play turns
    let first : TestResult := ⟨⟨"test:/ws/a.pl:a"⟩, "u", "a", .passed⟩
    e.active = none ∧ e.tree.Reachable ∧ tasks 0 = .run .all {} 0 ∧
      ∃ report, (0, .answer (.report (.ok report))) ∈ t.sent ∧ report.cancelled = true ∧
        report.results = [first] ∧
        sentOf 0 t.sent =
          (progressOfResult first).map .progress ++ [.answer (.report (.ok report))] := by
  intro source tree e c tasks answers requests turns t first
  have reachable : e.tree.Reachable := .insertInto _ .empty
  have finished : (t.sent.filterMap fun entry => entry.2.report?.map fun report =>
      (entry.1, report.cancelled, report.results)) = [(0, true, [first])] := by decide +kernel
  clear_value turns first
  obtain ⟨⟨i, sent⟩, member, shown⟩ := List.mem_filterMap.1 (finished ▸ List.mem_singleton_self _)
  obtain ⟨report, carried, same⟩ := Option.map_eq_some_iff.1 shown
  simp only [Prod.mk.injEq] at same
  obtain ⟨rfl, cancelled, results⟩ := same
  obtain rfl := Sent.report?_eq_some_iff.1 carried
  have run : tasks 0 = .run .all {} 0 := rfl
  have sent := sent_of_answered_run (c := c) (e := e) rfl reachable turns run member
  rw [results] at sent
  exact ⟨rfl, reachable, run, report, member, cancelled, results, by simpa using sent⟩

end Traffic

/-! ## One request after the other -/

namespace Server

def Relay.all (r : Relay) : List Notification :=
  r.sent ++ r.waiting

theorem Relay.all_forward (n : Nat) (r : Relay) : (r.forward n).all = r.all := by
  simp [all, forward]

section

variable [Walker] [Processes]

theorem Desk.relay_exec (settings : DiscoverySettings) (launcher : Launcher) {α : Type}
    (x : Activity α) (s : Engine × Desk) (connected : s.2.connected) :
    let h := (frontend settings launcher).host
    let d := (x.exec h s).2.2
    d.connected ∧ d.relay.all =
      s.2.relay.all ++ progressOf ((x.steps h s).map (Activity.Step.told h)) := by
  intro h d
  induction x generalizing s with
  | done a => exact ⟨connected, (List.append_nil _).symm⟩
  | state action next ih => exact ih _ _ connected
  | host action next ih =>
    have step : (h action s).2.2.connected ∧ (h action s).2.2.relay.all =
        s.2.relay.all ++ progressOf [Activity.Step.told h (.host action s)] := by
      rw [progressOf_singleton]
      cases action with
      | notify event =>
        obtain ⟨e, desk⟩ := s
        have line : desk.connected = true := connected
        simp [h, frontend, Frontend.host, observe, line, Activity.Step.told, Act.event?, Relay.all,
          Relay.push]
      | launch invocation =>
        exact ⟨connected, (Relay.all_forward _ _).trans (List.append_nil _).symm⟩
      | _ => exact ⟨connected, (List.append_nil _).symm⟩
    obtain ⟨still, more⟩ := ih (h action s).1 (h action s).2 step.1
    refine ⟨still, ?_⟩
    rw [Activity.steps_host, List.map_cons, ← List.singleton_append, progressOf_append,
      ← List.append_assoc, ← step.2]
    exact more

theorem Service.run_parts {s : Service} {w : Workspace} (opened : s.workspace = some w)
    (included : Option (List String)) :
    ∃ scope run, run = w.controller.run scope {} s.nextFlag ∧
      (s.run included).1 =
        ((run.exec w.host (s.engine, s.desk)).1.mapError .engine).map Report.json ∧
      (s.run included).2.desk.relay =
        { sent := (run.exec w.host (s.engine, s.desk)).2.2.relay.all } := by
  have drained (r : Relay) : r.drain = { sent := r.all } := by
    simp [Relay.drain, Relay.forward, Relay.all]
  simp only [Service.run, opened]
  exact ⟨_, _, rfl, rfl, drained _⟩

/-- The server by itself, where it takes one request after the other. A run that is answered with a
report has sent the progress of the tests that the report lists, and nothing is left waiting. -/
theorem Service.run_sends {s : Service} {w : Workspace} (opened : s.workspace = some w)
    (connected : s.desk.connected) (reachable : s.engine.tree.Reachable)
    (included : Option (List String)) :
    let out := s.run included
    out.1 = .error (.engine .disposed) ∨
      ∃ report : Report, out.1 = .ok report.json ∧ out.2.desk.relay =
        { sent := s.desk.relay.all ++ report.results.flatMap progressOfResult } := by
  obtain ⟨scope, run, same, response, relay⟩ := Service.run_parts opened included
  have told := Activity.exec_tells w.host run (s.engine, s.desk)
  obtain ⟨-, all⟩ :=
    Desk.relay_exec w.controller.settings w.launcher run (s.engine, s.desk) connected
  dsimp only
  rw [response, relay]
  cases result : (run.exec w.host (s.engine, s.desk)).1 with
  | error cause =>
    rw [result, same] at told
    rcases told_run_parts told with ⟨refused, -⟩ | ⟨_, _, _, _, finished, -⟩
    · obtain rfl := Except.error.inj refused
      exact .inl rfl
    · cases finished
  | ok report =>
    rw [result] at told
    subst same
    obtain ⟨tree, read, events⟩ := told_run_events told
    have plan := Activity.reachable_of_read w.serves.keeps _ reachable read
    refine .inr ⟨report, rfl, ?_⟩
    rw [← progress_of_told (events plan)]
    exact congrArg (fun sent => ({ sent } : Relay)) all

end

end Server

end TestExplorer
