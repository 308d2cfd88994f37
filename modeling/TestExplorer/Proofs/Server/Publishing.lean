import TestExplorer.Proofs.Requests
import TestExplorer.Server.Session

set_option autoImplicit false

namespace TestExplorer.Server

variable {U : Type}

structure Publication (U : Type) where
  uri : U
  version : Option Int
  diagnostics : List Diagnostic

namespace Publication

variable [Addresses U]

def notification (x : Publication U) : Notification where
  method := "textDocument/publishDiagnostics"
  params := .object ([("uri", .string (Addresses.render x.uri)),
    ("diagnostics", .array (x.diagnostics.map Diagnostic.json))] ++
      match x.version with
      | some n => [("version", .number n)]
      | none => [])

def of (uri : U) (version : Option Int) (warnings : List Warning) : Publication U where
  uri
  version
  diagnostics := warnings.map Warning.diagnostic

def ofRemarks? (r : Path × List Warning) : Option (Publication U) :=
  (Addresses.ofPath? r.1).map (of · none r.2)

end Publication

/-! ## Tasks -/

inductive Task (U : Type) where
  | resolve (id : Option String)
  | reload
  | edited (uri : U) (text : String) (version : Int)
  | changed (uri : U)

namespace Task

variable [Addresses U]

-- An address that names no path is no business of the controller.
def request? : Task U → Option Request
  | resolve id => some (.resolve id)
  | reload => some .reload
  | edited uri text _ => (Addresses.toPath? uri).map (.edited · text)
  | changed uri => (Addresses.toPath? uri).map .changed

def activity (c : Controller) (t : Task U) : Activity Unit :=
  match t.request? with
  | some r => r.activity c
  | none => pure ()

/-- What a task makes the server publish, given what can be read. -/
def publications (c : Controller) (d : Disk) : Task U → List (Publication U)
  | resolve _ => []
  | reload => ((d.documents (d.files c.roots)).map Document.remarks).filterMap Publication.ofRemarks?
  | edited uri text version =>
    match Addresses.toPath? uri with
    | some path =>
      if c.recognizes path then [Publication.of uri (some version) (warningsIn text)] else []
    | none => []
  | changed uri =>
    match Addresses.toPath? uri with
    | some path =>
      if c.recognizes path then
        match d.text path with
        | some source => (Publication.ofRemarks? (path, warningsIn source)).toList
        | none => [Publication.of uri none []]
      else []
    | none => []

end Task

def documentMethods : List String :=
  ["textDocument/didOpen", "textDocument/didChange", "textDocument/didSave",
    "textDocument/didClose", "workspace/didChangeWatchedFiles", "prologtest/resolve",
    "prologtest/reload"]

def Query.isAboutDocuments : Query → Bool
  | .run => false
  | _ => true

def Event.isAboutDocuments : Event → Bool
  | .initialized => false
  | .cancel => false
  | _ => true

theorem ofName?_documentMethods : ∀ name ∈ documentMethods,
    (∃ q, Method.ofName? name = some (.query q) ∧ q.isAboutDocuments) ∨
      ∃ e, Method.ofName? name = some (.event e) ∧ e.isAboutDocuments := by
  simp only [documentMethods, List.forall_mem_cons]
  exact ⟨.inr ⟨.opened, rfl, rfl⟩, .inr ⟨.changed, rfl, rfl⟩, .inr ⟨.saved, rfl, rfl⟩,
    .inr ⟨.closed, rfl, rfl⟩, .inr ⟨.watched, rfl, rfl⟩, .inl ⟨.resolve, rfl, rfl⟩,
    .inl ⟨.reload, rfl, rfl⟩, by simp⟩

namespace Message

variable [Addresses U]

def eventTasks (m : Message) : Event → List (Task U)
  | .opened =>
    match m.params.bind DocumentText.ofOpened? with
    | some d => d.texts.map (.edited d.uri · d.version)
    | none => []
  | .changed =>
    match m.params.bind DocumentText.ofChanged? with
    | some d => (d.texts.take 1).map (.edited d.uri · d.version)
    | none => []
  | .saved => (m.params.bind saved?).toList.map .changed
  | .closed => (m.params.bind closed?).toList.map .changed
  | .watched => ((m.params.bind watched?).getD []).map .changed
  | _ => []

def queryTasks (m : Message) : Query → List (Task U)
  | .resolve =>
    match Service.withParams m resolveId? with
    | .ok id => [.resolve id]
    | .error _ => []
  | .reload => if m.params.isSome then [] else [.reload]
  | .run => []

-- What the server takes from a message about documents. Events are no requests, and queries are
-- nothing else.
def tasks (m : Message) : List (Task U) :=
  match Method.ofName? m.method with
  | some (.query q) => if m.isRequest then m.queryTasks q else []
  | some (.event e) => if m.isRequest then [] else m.eventTasks e
  | _ => []

end Message

namespace Service

section

variable [Addresses U] [Walker] [Processes]

def attend (s : Service) : Task U → Service
  | .resolve id => (s.resolve id).2
  | .reload => s.reload.2
  | .edited uri text version => s.documentEdited uri text version
  | .changed uri => s.documentChanged uri

theorem event_tasks (s : Service) (m : Message) {e : Event} (known : e.isAboutDocuments) :
    s.event m e = (m.eventTasks e).foldl attend s := by
  cases e with
  | initialized => contradiction
  | cancel => contradiction
  | opened =>
    cases read : m.params.bind DocumentText.ofOpened? with
    | none => simp only [event, Message.eventTasks, read, List.foldl_nil]
    | some d => simp only [event, Message.eventTasks, read, List.foldl_map, attend]
  | changed =>
    cases read : m.params.bind DocumentText.ofChanged? with
    | none => simp only [event, Message.eventTasks, read, List.foldl_nil]
    | some d =>
      simp only [event, Message.eventTasks, read]
      cases d.texts <;> rfl
  | saved =>
    simp only [event, Message.eventTasks]
    cases m.params.bind saved? <;> rfl
  | closed =>
    simp only [event, Message.eventTasks]
    cases m.params.bind closed? <;> rfl
  | watched =>
    cases read : m.params.bind watched? with
    | none => simp only [event, Message.eventTasks, read, Option.getD_none, List.map_nil,
        List.foldl_nil]
    | some uris => simp only [event, Message.eventTasks, read, Option.getD_some, List.foldl_map,
        attend]

theorem query_tasks (s : Service) (m : Message) {q : Query} (known : q.isAboutDocuments) :
    (s.query m q).2 = (m.queryTasks q).foldl attend s := by
  cases q with
  | run => contradiction
  | resolve =>
    simp only [query, Message.queryTasks]
    cases withParams m resolveId? <;> rfl
  | reload =>
    simp only [query, Message.queryTasks]
    cases m.params <;> rfl

theorem handle_tasks [Toml.Parser] {s : Service} {m : Message} (open' : s.phase = .initialized)
    (known : m.method ∈ documentMethods) :
    (s.handle m).2 = m.tasks.foldl attend s.listens := by
  have listening : s.listens.phase = .initialized := open'
  rcases ofName?_documentMethods m.method known with ⟨q, named, about⟩ | ⟨e, named, about⟩
  · cases asked : m.isRequest <;>
      simp [handle, open', named, perform, whenInitialized, listening, asked, Message.tasks,
        query_tasks _ m about]
  · cases asked : m.isRequest <;>
      simp [handle, open', named, perform, whenInitialized, listening, asked, Message.tasks,
        event_tasks _ m about]

end

end Service

/-! ## The host of the server -/

namespace Desk

def disk [Walker] (settings : DiscoverySettings) (d : Desk) : Disk where
  list root := (listSources d.site settings root).1
  read := d.site.fs.readSource d.site.here

variable [Walker] [Processes] (settings : DiscoverySettings) (launcher : Launcher)

theorem frontend_serves : (frontend settings launcher).host.Serves (disk settings) where
  lists _ _ := rfl
  reads _ _ := rfl
  keeps action s := by
    cases action with
    | notify event =>
      obtain ⟨e, d⟩ := s
      simp only [frontend, Frontend.host, observe]
      split
      next =>
        simp only [Engine.perform]
        split <;> rfl
      next => rfl
    | _ => rfl
  still action s := by
    cases action with
    | notify event =>
      obtain ⟨e, d⟩ := s
      simp only [frontend, Frontend.host, observe]
      split <;> rfl
    | _ => rfl

theorem frontend_line (action : HostAction) (s : Engine × Desk) (about : action.isAboutDocuments) :
    let d := ((frontend settings launcher).host action s).2.2
    (d.relay, d.connected) = (s.2.relay, s.2.connected) := by
  cases action with
  | launch invocation => contradiction
  | notify event => contradiction
  | _ => rfl

end Desk

namespace Workspace

variable [Walker] [Processes]

def host (w : Workspace) : Activity.Host Desk :=
  (Desk.frontend w.controller.settings w.launcher).host

def disk (w : Workspace) (d : Desk) : Disk :=
  d.disk w.controller.settings

theorem serves (w : Workspace) : w.host.Serves w.disk :=
  Desk.frontend_serves _ _

end Workspace

/-! ## What a task leaves -/

namespace Service

section

variable [Addresses U]

def withSent (s : Service) (published : List (Publication U)) : Service :=
  s.onDesk fun d => { d with
    relay := { d.relay with sent := d.relay.sent ++ published.map Publication.notification } }

theorem withSent_withSent (s : Service) (a b : List (Publication U)) :
    (s.withSent a).withSent b = s.withSent (a ++ b) := by
  simp [withSent, onDesk]

theorem withSent_nil (s : Service) : s.withSent ([] : List (Publication U)) = s := by
  simp [withSent, onDesk]

theorem publish_eq {s : Service} (connected : s.desk.connected) (uri : U) (version : Option Int)
    (diagnostics : List Diagnostic) :
    s.publish uri version diagnostics = s.withSent [{ uri, version, diagnostics }] := by
  cases version <;> simp [publish, send, Desk.send, connected, onDesk, withSent,
    Publication.notification]

theorem publishFound_eq {s : Service} (connected : s.desk.connected) (f : Found) :
    s.publishFound f = s.withSent (Publication.ofRemarks? f.remarks).toList := by
  unfold publishFound Publication.ofRemarks?
  rw [show f.remarks.1 = f.path from rfl]
  cases Addresses.ofPath? f.path with
  | none => exact s.withSent_nil.symm
  | some uri => exact publish_eq connected uri none f.diagnostics

theorem publishAll_eq {s : Service} (connected : s.desk.connected) (files : List Found) :
    s.publishAll files =
      s.withSent ((files.map Found.remarks).filterMap Publication.ofRemarks?) := by
  induction files generalizing s with
  | nil => exact s.withSent_nil.symm
  | cons f rest ih =>
    have later := ih (s := s.withSent (Publication.ofRemarks? f.remarks).toList) connected
    rw [publishAll, List.foldl_cons, publishFound_eq connected, ← publishAll, later,
      withSent_withSent]
    cases found : Publication.ofRemarks? f.remarks <;> simp [found]

end

structure Ready (s : Service) (w : Workspace) : Prop where
  phase : s.phase = .initialized
  workspace : s.workspace = some w
  connected : s.desk.connected
  live : s.engine.disposed = false

section

variable [Walker] [Processes]

theorem exec_line (s : Service) (w : Workspace) {α : Type} {x : Activity α}
    (used : x.Uses HostAction.isAboutDocuments) :
    (s.exec w x).2.desk.relay = s.desk.relay ∧ (s.exec w x).2.desk.connected = s.desk.connected := by
  let line (d : Desk) := (d.relay, d.connected)
  have kept : line (x.exec w.host (s.engine, s.desk)).2.2 = line s.desk :=
    used.exec_world w.host (s.engine, s.desk) fun action s about =>
      Desk.frontend_line _ _ action s about
  exact ⟨congrArg Prod.fst kept, congrArg Prod.snd kept⟩

def served [Addresses U] (s : Service) (w : Workspace) (t : Task U) : Service :=
  (s.exec w (t.activity w.controller)).2.withSent (t.publications w.controller (w.disk s.desk))

theorem exec_snapshot (s : Service) (w : Workspace) : (s.exec w Controller.snapshot).2 = s := rfl

end

section

variable [Addresses U] [Walker] [Processes] {s : Service} {w : Workspace} (ready : s.Ready w)

include ready

-- The line to the editor stays open while a request is served.
theorem Ready.exec_connected {α : Type} {x : Activity α}
    (used : x.Uses HostAction.isAboutDocuments) : (s.exec w x).2.desk.connected :=
  (s.exec_line w used).2.trans ready.connected

theorem reload_served : s.reload.2 = s.served w .reload := by
  obtain ⟨-, outcome, -⟩ :=
    w.serves.reload_outcome w.controller s.engine s.desk ready.live
  have connected := ready.exec_connected (uses_reload w.controller)
  have run : (s.exec w (Task.reload.activity w.controller)).2 = (s.exec w w.controller.reload).2 := by
    simp only [exec, Task.activity, Task.request?, Request.activity, Activity.exec_discard]
  change ∃ summary, (s.exec w w.controller.reload).1 = _ ∧ _ at outcome
  simp only [Service.reload, ready.workspace, served, run]
  generalize s.exec w w.controller.reload = done at connected outcome ⊢
  obtain ⟨answer, after⟩ := done
  obtain ⟨summary, rfl, remarks⟩ := outcome
  simp only [exec_snapshot, publishAll_eq connected, remarks]
  rfl

theorem documentEdited_served (uri : U) (text : String) (version : Int) :
    s.documentEdited uri text version = s.served w (.edited uri text version) := by
  cases named : Addresses.toPath? uri with
  | none =>
    have idle : (Task.edited uri text version).activity w.controller = pure () := by
      simp [Task.activity, Task.request?, named]
    simp only [documentEdited, served, Task.publications, ready.workspace, named, idle, withSent_nil]
    rfl
  | some path =>
    obtain ⟨-, outcome, -⟩ :=
      w.serves.documentEdited_outcome w.controller s.engine s.desk ready.live path text
    have connected := ready.exec_connected (uses_documentEdited w.controller path text)
    have run : (s.exec w ((Task.edited uri text version).activity w.controller)).2 =
        (s.exec w (w.controller.documentEdited path text)).2 := by
      simp only [exec, Task.activity, Task.request?, named, Option.map_some,
        Request.activity, Activity.exec_discard]
    change (s.exec w (w.controller.documentEdited path text)).1.map _ = _ at outcome
    simp only [documentEdited, served, Task.publications, ready.workspace, named, run]
    generalize s.exec w (w.controller.documentEdited path text) = done at connected outcome ⊢
    obtain ⟨answer, after⟩ := done
    cases answer with
    | error cause => cases outcome
    | ok found? =>
      have remarks := Except.ok.inj outcome
      cases known : w.controller.recognizes path with
      | false =>
        obtain rfl : found? = none := by simpa [known] using remarks
        exact (withSent_nil after).symm
      | true =>
        obtain ⟨found, rfl, same⟩ : ∃ found, found? = some found ∧
            found.remarks = (path, warningsIn text) := by simpa [known] using remarks
        have warnings : found.warnings = warningsIn text := congrArg Prod.snd same
        simp only [publish_eq connected, Found.diagnostics, warnings]
        rfl

theorem documentChanged_served (uri : U) : s.documentChanged uri = s.served w (.changed uri) := by
  cases named : Addresses.toPath? uri with
  | none =>
    have idle : (Task.changed uri).activity w.controller = pure () := by
      simp [Task.activity, Task.request?, named]
    simp only [documentChanged, served, Task.publications, ready.workspace, named, idle,
      withSent_nil]
    rfl
  | some path =>
    obtain ⟨-, outcome, -⟩ :=
      w.serves.documentChanged_outcome w.controller s.engine s.desk ready.live path
    have connected := ready.exec_connected (uses_documentChanged w.controller path)
    have run : (s.exec w ((Task.changed uri).activity w.controller)).2 =
        (s.exec w (w.controller.documentChanged path)).2 := by
      simp only [exec, Task.activity, Task.request?, named, Option.map_some,
        Request.activity, Activity.exec_discard]
    change (s.exec w (w.controller.documentChanged path)).1.map _ = _ at outcome
    simp only [documentChanged, served, Task.publications, ready.workspace, named, run]
    generalize s.exec w (w.controller.documentChanged path) = done at connected outcome ⊢
    obtain ⟨answer, after⟩ := done
    cases known : w.controller.recognizes path with
    | false =>
      obtain rfl : answer = .ok none := by
        cases answer with
        | error cause => simp [known, Except.map] at outcome
        | ok found? => simpa [known, Except.map] using outcome
      exact (withSent_nil after).symm
    | true =>
      cases read : (w.disk s.desk).read path with
      | error unread =>
        obtain rfl : answer = .error (.read path unread) := by
          cases answer with
          | error cause => simpa [known, read, Except.map] using outcome
          | ok found? => simp [known, read, Except.map] at outcome
        simp only [Disk.text, read, Except.toOption, publish_eq connected]
        rfl
      | ok source =>
        obtain ⟨found, rfl, same⟩ : ∃ found, answer = .ok (some found) ∧
            found.remarks = (path, warningsIn source) := by
          cases answer with
          | error cause => simp [known, read, Except.map] at outcome
          | ok found? => simpa [known, read, Except.map] using outcome
        simp only [Disk.text, read, Except.toOption, publishFound_eq connected, same]
        rfl

theorem attend_served (t : Task U) : s.attend t = s.served w t := by
  cases t with
  | resolve id =>
    simp only [attend, Service.resolve, ready.workspace, served, Task.publications, withSent_nil]
    simp only [exec, Task.activity, Task.request?, Request.activity, Activity.exec_discard]
  | reload => exact reload_served ready
  | edited uri text version => exact documentEdited_served ready uri text version
  | changed uri => exact documentChanged_served ready uri

end

end Service

end TestExplorer.Server
