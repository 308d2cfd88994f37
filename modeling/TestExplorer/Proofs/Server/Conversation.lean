import TestExplorer.Proofs.Server.Publishing
import TestExplorer.Proofs.Server.View

set_option autoImplicit false

namespace TestExplorer.Server

variable {U : Type} [Addresses U]

namespace Task

variable {t : Task U}

theorem isAboutDocuments_of_request? {r : Request} (comes : t.request? = some r) :
    r.isAboutDocuments := by
  cases t with
  | resolve id => exact Option.some.inj comes ▸ rfl
  | reload => exact Option.some.inj comes ▸ rfl
  | edited uri text version =>
    obtain ⟨q, -, rfl⟩ := Option.map_eq_some_iff.1 comes
    rfl
  | changed uri =>
    obtain ⟨q, -, rfl⟩ := Option.map_eq_some_iff.1 comes
    rfl

theorem activity_of_request? (c : Controller) {r : Request} (comes : t.request? = some r) :
    t.activity c = r.activity c := by
  simp [activity, comes]

theorem activity_idle (c : Controller) (idle : t.request? = none) : t.activity c = pure () := by
  simp [activity, idle]

theorem publications_idle (c : Controller) (d : Disk) (idle : t.request? = none) :
    t.publications c d = [] := by
  cases t with
  | resolve id => rfl
  | reload => contradiction
  | edited uri text version => simp [publications, Option.map_eq_none_iff.1 idle]
  | changed uri => simp [publications, Option.map_eq_none_iff.1 idle]

end Task

namespace Service

section

variable [Walker]

/-- What becomes of the service `s`: the requests that it serves, the writes to its tree and what it
publishes. -/
structure Leads (s : Service) (w : Workspace) (requests : List Request) (writes : List TreeWrite)
    (published : List (Publication U)) (s' : Service) : Prop where
  ready : s'.Ready w
  disk : w.disk s'.desk = w.disk s.desk
  sent : s'.desk.relay.sent = s.desk.relay.sent ++ published.map Publication.notification
  tree : s'.engine.tree = writes.foldl TreeWrite.apply s.engine.tree
  scans : ∀ document, .insert document ∈ writes → ∃ q source, document = Document.scan q source
  pictures : ∀ {p : Path} {v : View} {before : List TreeWrite}, w.controller.recognizes p →
    v.Pictures p s.engine before →
      (requests.foldl (View.step p w.controller (w.disk s.desk)) v).Pictures p s'.engine
        (before ++ writes)
  uniform : ∀ {p : Path} {before : List Document}, w.controller.recognizes p →
    (w.disk s.desk).ListsAlike w.controller.roots p → Document.Uniform before →
      Document.Uniform (writes.foldl (TreeWrite.layer p) before)

namespace Leads

variable {s s' s'' : Service} {w : Workspace} {a b : List Request} {writes writes' : List TreeWrite}
  {published published' : List (Publication U)}

theorem refl (ready : s.Ready w) : s.Leads w [] [] ([] : List (Publication U)) s where
  ready := ready
  disk := rfl
  sent := (List.append_nil _).symm
  tree := rfl
  scans _ member := by contradiction
  pictures _ known := by rwa [List.append_nil]
  uniform _ _ same := same

theorem trans (first : s.Leads w a writes published s')
    (second : s'.Leads w b writes' published' s'') :
    s.Leads w (a ++ b) (writes ++ writes') (published ++ published') s'' where
  ready := second.ready
  disk := second.disk.trans first.disk
  sent := by rw [second.sent, first.sent, List.map_append, List.append_assoc]
  tree := by rw [second.tree, first.tree, List.foldl_append]
  scans document member := (List.mem_append.1 member).elim (first.scans _) (second.scans _)
  pictures recognized known := by
    rw [List.foldl_append, ← List.append_assoc, ← first.disk]
    exact second.pictures recognized (first.disk ▸ first.pictures recognized known)
  uniform recognized alike same := by
    rw [List.foldl_append]
    exact second.uniform recognized (first.disk ▸ alike) (first.uniform recognized alike same)

end Leads

end

section

variable [Walker] [Processes]

def writes (w : Workspace) : Service → List (Task U) → List TreeWrite
  | _, [] => []
  | s, t :: rest =>
    (t.activity w.controller).writes w.host (s.engine, s.desk) ++ writes w (s.attend t) rest

variable {s : Service} {w : Workspace}

theorem Ready.leads (ready : s.Ready w) (t : Task U) :
    s.Leads w t.request?.toList ((t.activity w.controller).writes w.host (s.engine, s.desk))
      (t.publications w.controller (w.disk s.desk)) (s.attend t) := by
  rw [attend_served ready]
  cases comes : t.request? with
  | none =>
    have activity := t.activity_idle w.controller comes
    have silent := t.publications_idle w.controller (w.disk s.desk) comes
    rw [served, activity, silent, withSent_nil]
    exact .refl ready
  | some r =>
    have about := t.isAboutDocuments_of_request? comes
    have line := s.exec_line w (r.uses w.controller about)
    have still := w.serves.exec_disk (r.activity w.controller) (s.engine, s.desk)
    obtain ⟨written, status⟩ :=
      r.outcome (c := w.controller) w.serves ready.live s.desk about
    have tree := Activity.exec_tree (fun action s => congrArg (·.1) (w.serves.keeps action s))
      (r.activity w.controller) (s.engine, s.desk)
    rw [served, t.activity_of_request? w.controller comes]
    constructor
    case ready =>
      exact ⟨ready.phase, ready.workspace, line.2.trans ready.connected, congrArg (·.2.2) status⟩
    case disk => exact still
    case sent => exact congrArg (·.sent ++ _) line.1
    case tree => exact tree
    case scans => exact fun document member => Request.scan_of_insert (written ▸ member)
    case pictures =>
      intro p v before recognized known
      rw [written]
      exact known.step recognized r (congrArg (·.1) status) (congrArg (·.2.1) status)
    case uniform =>
      intro p before recognized alike same
      rw [written]
      exact r.uniform_writes recognized alike same

theorem Ready.leads_tasks (ready : s.Ready w) (tasks : List (Task U)) :
    s.Leads w (tasks.filterMap Task.request?) (writes w s tasks)
      (tasks.flatMap (Task.publications w.controller (w.disk s.desk))) (tasks.foldl attend s) := by
  induction tasks generalizing s with
  | nil => exact .refl ready
  | cons t rest ih =>
    have first := ready.leads t
    have both := first.trans (first.disk ▸ ih first.ready)
    rwa [show t.request?.toList ++ rest.filterMap Task.request? =
      (t :: rest).filterMap Task.request? by cases comes : t.request? <;> simp [comes]] at both

end

/-! ## A server and its messages -/

theorem Ready.listens_eq {s : Service} {w : Workspace} (ready : s.Ready w) : s.listens = s := by
  have connected := ready.connected
  have phase := ready.phase
  obtain ⟨desk, env, phase', workspace, engine, flag⟩ := s
  obtain ⟨site, relay, notices, connected', cancelOn⟩ := desk
  simp_all [listens, onDesk]

section

variable [Toml.Parser] [Walker] [Processes] {s : Service} {w : Workspace}

def heed (s : Service) (messages : List Message) : Service :=
  messages.foldl (fun s m => (s.handle m).2) s

theorem heed_tasks (ready : s.listens.Ready w) {messages : List Message}
    (about : ∀ m ∈ messages, m.method ∈ documentMethods) :
    (s.heed messages).listens = (messages.flatMap Message.tasks).foldl attend s.listens := by
  induction messages generalizing s with
  | nil => rfl
  | cons m rest ih =>
    obtain ⟨here, later⟩ := List.forall_mem_cons.1 about
    have handled : (s.handle m).2 = m.tasks.foldl attend s.listens :=
      handle_tasks (show s.phase = .initialized from ready.phase) here
    have ready' := (ready.leads_tasks m.tasks).ready
    have still := ready'.listens_eq
    rw [← handled] at ready' still
    rw [heed, List.foldl_cons, ← heed, ih (still.symm ▸ ready') later, still, handled,
      List.flatMap_cons, List.foldl_append]

end

def fresh (site : Site) (env : Environment) : Service :=
  { desk := { site }, env }

theorem note_note (s : Service) (notices : List Notice) (notice : Notice) :
    (s.onDesk (Desk.note notices)).note notice = s.onDesk (Desk.note (notices ++ [notice])) := by
  simp [note, onDesk, Desk.note]

theorem settingsFor_eq [Toml.Parser] (s : Service) (roots : List Path) :
    ∃ notices, (s.settingsFor roots).2 = s.onDesk (Desk.note notices) := by
  unfold settingsFor
  dsimp only
  split
  next => exact ⟨_, rfl⟩
  next => exact ⟨_, note_note s _ _⟩

theorem fresh_setUp [Toml.Parser] (site : Site) (env : Environment) (o : Opening U) :
    ∃ notices w, ((fresh site env).setUp o).2 =
      { (fresh site env).onDesk (Desk.note notices) with workspace := some w } := by
  obtain ⟨notices, loaded⟩ := (fresh site env).settingsFor_eq (rootsOf o)
  simp only [setUp]
  generalize (fresh site env).settingsFor (rootsOf o) = settings at loaded ⊢
  obtain ⟨config, s⟩ := settings
  obtain rfl : s = (fresh site env).onDesk (Desk.note notices) := loaded
  exact ⟨notices, _, rfl⟩

-- Only an initialization gives a fresh server its workspace, and it does nothing else.
theorem fresh_handle [Toml.Parser] [Walker] [Processes] {site : Site} {env : Environment}
    {m : Message} {w : Workspace}
    (opens : ((fresh site env).handle m).2.workspace = some w) :
    ∃ notices, ((fresh site env).handle m).2 =
      { (fresh site env).onDesk (Desk.note notices) with
        workspace := some w, phase := .initialized } := by
  have unchanged {x : Answer × Service} (same : x.2 = fresh site env)
      (opens : x.2.workspace = some w) : False := by
    rw [same] at opens
    contradiction
  cases named : Method.ofName? m.method with
  | none =>
    refine (unchanged ?_ opens).elim
    simp only [handle, named]
    cases m.method.startsWith "$/" <;> rfl
  | some method =>
    have handled : (fresh site env).handle m = (fresh site env).perform m method := by
      simp only [handle, named]
      rfl
    rw [handled] at opens ⊢
    cases method with
    | setUp =>
      have early : (fresh site env).phase = .uninitialized := rfl
      simp only [perform, early] at opens ⊢
      cases asked : m.isRequest with
      | false => simp [asked, fresh] at opens
      | true =>
        cases read : withParams m Opening.ofParams? with
        | error e => simp [asked, read, fresh] at opens
        | ok o =>
          obtain ⟨notices, w', ready⟩ := fresh_setUp site env o
          simp only [asked, read, ready, ne_eq, not_true, if_false, Bool.not_true,
            Bool.false_eq_true] at opens ⊢
          obtain rfl := Option.some.inj opens
          exact ⟨notices, rfl⟩
    | exit => contradiction
    | cancelRequest => contradiction
    | shutdown => contradiction
    | _ => contradiction

end Service

structure Conversation where
  site : Site
  env : Environment := fun _ => none
  first : Message
  messages : List Message

namespace Conversation

variable [Toml.Parser] [Walker] [Processes] (x : Conversation)

def opened : Service :=
  ((Service.fresh x.site x.env).handle x.first).2

def final : Service :=
  x.opened.heed x.messages

def tasks : List (Task U) :=
  x.messages.flatMap Message.tasks

def requests : List Request :=
  x.tasks.filterMap Task.request?

-- What can be read all along.
def disk (w : Workspace) : Disk :=
  w.disk { site := x.site }

def published (w : Workspace) : List (Publication U) :=
  x.tasks.flatMap (Task.publications w.controller (x.disk w))

def writes (w : Workspace) : List TreeWrite :=
  Service.writes w x.opened.listens x.tasks

-- The first message gives the server its workspace, and the others are about documents.
structure Opens (w : Workspace) : Prop where
  workspace : x.opened.workspace = some w
  about : ∀ m ∈ x.messages, m.method ∈ documentMethods

variable {x} {w : Workspace}

theorem Opens.start (opens : x.Opens w) :
    x.opened.listens.Ready w ∧ w.disk x.opened.listens.desk = x.disk w ∧
      x.opened.listens.engine = {} ∧ x.opened.listens.desk.relay.sent = [] := by
  obtain ⟨notices, opened⟩ := Service.fresh_handle opens.workspace
  rw [Conversation.opened, opened]
  exact ⟨⟨rfl, rfl, rfl, rfl⟩, rfl, rfl, rfl⟩

theorem Opens.leads (opens : x.Opens w) :
    (x.opened.listens).Leads w x.requests (x.writes w) (x.published w) x.final.listens := by
  obtain ⟨ready, disk, -, -⟩ := opens.start
  rw [final, Service.heed_tasks ready opens.about, published, ← disk]
  exact ready.leads_tasks x.tasks

theorem Opens.final_eq (opens : x.Opens w) :
    x.final.desk.relay.sent = (x.published w).map Publication.notification ∧
      x.final.engine.tree = (x.writes w).foldl TreeWrite.apply {} := by
  obtain ⟨-, -, empty, unsent⟩ := opens.start
  have sent := opens.leads.sent
  have tree := opens.leads.tree
  rw [unsent, List.nil_append] at sent
  rw [empty] at tree
  exact ⟨sent, tree⟩

theorem Opens.pictures (opens : x.Opens w) {p : Path} (recognized : w.controller.recognizes p) :
    (x.requests.foldl (View.step p w.controller (x.disk w)) {}).Pictures p x.final.engine
      (x.writes w) := by
  obtain ⟨-, disk, empty, -⟩ := opens.start
  rw [← disk]
  exact opens.leads.pictures recognized (empty ▸ View.pictures_empty p)

end Conversation

end TestExplorer.Server
