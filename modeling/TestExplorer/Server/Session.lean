import TestExplorer.ConfigFile
import TestExplorer.Frontend
import TestExplorer.Presentation
import TestExplorer.Server.Diagnostics
import TestExplorer.Server.Methods
import TestExplorer.Server.Progress
import TestExplorer.Version

set_option autoImplicit false

namespace TestExplorer.Server

variable {U : Type} [Addresses U] [Toml.Parser] [Walker] [Processes]

inductive Phase where
  | uninitialized
  | initialized
  | shutDown
  | exited
  deriving DecidableEq

structure Desk where
  site : Site
  relay : Relay := {}
  notices : List Notice := []
  connected : Bool := false
  -- The test whose start is answered with a cancellation.
  cancelOn : Option String := none

namespace Desk

def send (d : Desk) (n : Notification) : Desk :=
  if d.connected then { d with relay := { d.relay with sent := d.relay.sent ++ [n] } } else d

def note (notices : List Notice) (d : Desk) : Desk :=
  { d with notices := d.notices ++ notices }

def isCancelling (d : Desk) : RunEvent → Bool
  | .started item => d.cancelOn == some item.id.text
  | _ => false

def observe (event : RunEvent) (s : Engine × Desk) : Engine × Desk :=
  let (e, d) := s
  let e := if d.isCancelling event then (e.perform .cancelActive).2 else e
  (e, if d.connected then { d with relay := d.relay.push event } else d)

-- While a test runs, what waits is sent.
def launched (_ : Launcher.Launch) (s : Engine × Desk) : Engine × Desk :=
  let (e, d) := s
  (e, { d with relay := d.relay.drain })

def frontend (settings : DiscoverySettings) (launcher : Launcher) : Frontend Desk :=
  { site := Desk.site, settings, launcher, observe, launched, note }

end Desk

structure Workspace where
  controller : Controller
  launcher : Launcher

structure Service where
  desk : Desk
  env : Environment := fun _ => none
  phase : Phase := .uninitialized
  workspace : Option Workspace := none
  engine : Engine := {}
  nextFlag : Flag := 0

namespace Service

def onDesk (s : Service) (f : Desk → Desk) : Service :=
  { s with desk := f s.desk }

def send (s : Service) (n : Notification) : Service :=
  s.onDesk (·.send n)

def note (s : Service) (notice : Notice) : Service :=
  s.onDesk (Desk.note [notice])

def exec {α : Type} (s : Service) (w : Workspace) (a : Activity α) : α × Service :=
  let f := Desk.frontend w.controller.settings w.launcher
  let (answer, (engine, desk)) := a.exec f.host (s.engine, s.desk)
  (answer, { s with engine, desk })

def nodes (found : List Node) : Response :=
  (Node.jsonOf? found).mapError .notWritable

/-! ## Publishing -/

def publish (s : Service) (uri : U) (version : Option Int) (diagnostics : List Diagnostic) :
    Service :=
  let shown : List (String × Json) := match version with
    | some n => [("version", .number n)]
    | none => []
  s.send {
    method := "textDocument/publishDiagnostics"
    params := .object ([("uri", .string (Addresses.render uri)),
      ("diagnostics", .array (diagnostics.map Diagnostic.json))] ++ shown) }

-- Publishes under the address of the path.
def publishFound (s : Service) (found : Found) : Service :=
  match Addresses.ofPath? found.path with
  | some uri => s.publish uri none found.diagnostics
  | none => s

def publishAll (s : Service) (files : List Found) : Service :=
  files.foldl publishFound s

/-! ## Requests -/

def resolve (s : Service) (id : Option String) : Response × Service :=
  match s.workspace with
  | none => (.error .noWorkspace, s)
  | some w =>
    let (found, s) := s.exec w (w.controller.resolve id)
    ((found.mapError .engine).bind nodes, s)

-- What is included runs, and without a choice everything. All progress goes out before the
-- answer.
def run (s : Service) (included : Option (List String)) : Response × Service :=
  match s.workspace with
  | none => (.error .noWorkspace, s)
  | some w =>
    let scope : Scope := match included with
      | some ids => .many ids
      | none => .all
    let flag := s.nextFlag
    let s := { s with nextFlag := flag + 1 }
    let (report, s) := s.exec w (w.controller.run scope {} flag)
    let s := s.onDesk fun d => { d with relay := d.relay.drain }
    ((report.mapError .engine).map Report.json, s)

def cancel (s : Service) : Service :=
  match s.workspace with
  | none => s
  | some w => (s.exec w Controller.cancel).2

def reload (s : Service) : Response × Service :=
  match s.workspace with
  | none => (.error .noWorkspace, s)
  | some w =>
    match s.exec w w.controller.reload with
    | (.error cause, s) => (.error (.engine cause), s)
    | (.ok summary, s) =>
      let (tree, s) := (s.publishAll summary.files).exec w Controller.snapshot
      (nodes tree.nodes, s)

/-! ## Documents -/

def documentEdited (s : Service) (uri : U) (text : String) (version : Int) : Service :=
  match s.workspace, Addresses.toPath? uri with
  | some w, some path =>
    match s.exec w (w.controller.documentEdited path text) with
    | (.ok (some found), s) => s.publish uri (some version) found.diagnostics
    | (.ok none, s) => s
    | (.error cause, s) => s.note (.failed cause)
  | _, _ => s

-- A document that cannot be read any more has no warnings.
def documentChanged (s : Service) (uri : U) : Service :=
  match s.workspace, Addresses.toPath? uri with
  | some w, some path =>
    match s.exec w (w.controller.documentChanged path) with
    | (.ok (some found), s) => s.publishFound found
    | (.ok none, s) => s
    | (.error (.read _ _), s) => s.publish uri none []
    | (.error cause, s) => s.note (.failed cause)
  | _, _ => s

/-! ## Beginning and end -/

def rootsOf (o : Opening U) : List Path :=
  match o.folders.filterMap Addresses.toPath? with
  | [] => (o.root.bind Addresses.toPath?).toList
  | folders => folders

-- The settings of the first root. Settings that cannot be used give way to the defaults.
def settingsFor (s : Service) (roots : List Path) : Config × Service :=
  let (config, notices) := match roots with
    | root :: _ => Config.load s.desk.site.fs s.desk.site.here s.env root
    | [] => Config.overridden (.ok {}) s.env
  let s := s.onDesk (Desk.note notices)
  match config with
  | .ok config => (config, s)
  | .error cause => ({}, s.note (.settingsRejected cause.message))

def about : Json :=
  .object [
    ("capabilities", .object [("textDocumentSync",
      .object [("openClose", .bool true), ("change", .number 1), ("save", .bool true)])]),
    ("serverInfo", .object [("name", .string "prologtest-lsp"), ("version", .string version)])]

-- A second workspace is not taken.
def setUp (s : Service) (o : Opening U) : Response × Service :=
  let roots := rootsOf o
  let (config, s) := s.settingsFor roots
  let s := match s.workspace with
    | some _ => s.note .secondWorkspace
    | none =>
      let controller : Controller := { roots, settings := config.discovery }
      { s with workspace := some { controller, launcher := .ofSettings config.interpreter } }
  (.ok about, s)

def greet (s : Service) : Service :=
  s.send {
    method := "window/logMessage"
    params := .object [("type", .number 3), ("message", .string "prologtest LSP initialized")] }

def shutDown (s : Service) : Service :=
  match s.workspace with
  | none => s
  | some w => (s.exec w Controller.dispose).2

/-! ## Messages -/

def refusal : Phase → ResponseError
  | .uninitialized => .notInitialized
  | _ => .invalidRequest

def refuse (m : Message) (e : ResponseError) : Answer :=
  if m.isRequest then .response (.error e) else .silent

def withParams {α : Type} (m : Message) (read : Json → Option α) : Except ResponseError α :=
  match m.params.bind read with
  | some a => .ok a
  | none => .error .invalidParams

def answered (result : Response × Service) : Answer × Service :=
  (.response result.1, result.2)

def query (s : Service) (m : Message) : Query → Answer × Service
  | .resolve =>
    match withParams m resolveId? with
    | .ok id => answered (s.resolve id)
    | .error e => (.response (.error e), s)
  | .run =>
    match withParams m include? with
    | .ok included => answered (s.run included)
    | .error e => (.response (.error e), s)
  | .reload =>
    if m.params.isSome then (.response (.error .invalidParams), s) else answered s.reload

-- A notification that is not well formed is dropped.
def event (s : Service) (m : Message) : Event → Service
  | .initialized =>
    match m.params.bind fun j => if Shape.fits (.record []) j then some () else none with
    | some _ => s.greet
    | none => s
  | .opened =>
    match m.params.bind DocumentText.ofOpened? with
    | some d => d.texts.foldl (fun s text => s.documentEdited d.uri text d.version) s
    | none => s
  | .changed =>
    match m.params.bind DocumentText.ofChanged? with
    | some d =>
      match d.texts with
      | text :: _ => s.documentEdited d.uri text d.version
      | [] => s
    | none => s
  | .saved =>
    match m.params.bind saved? with
    | some uri => s.documentChanged uri
    | none => s
  | .closed =>
    match m.params.bind closed? with
    | some uri => s.documentChanged uri
    | none => s
  | .watched =>
    match m.params.bind watched? with
    | some uris => uris.foldl documentChanged s
    | none => s
  | .cancel => if m.params.isSome then s else s.cancel

def whenInitialized (s : Service) (m : Message) (act : Answer × Service) : Answer × Service :=
  if s.phase = .initialized then act else (refuse m (refusal s.phase), s)

def perform (s : Service) (m : Message) : Method → Answer × Service
  | .setUp =>
    if s.phase ≠ .uninitialized then (refuse m .invalidRequest, s)
    else if !m.isRequest then (.silent, s)
    else match withParams m Opening.ofParams? with
      | .ok o =>
        let (r, s) := s.setUp o
        (.response r, { s with phase := .initialized })
      | .error e => (.response (.error e), s)
  | .shutdown =>
    s.whenInitialized m
      (let s := { s with phase := .shutDown }
      if !m.isRequest then (.silent, s)
      else if m.params.isSome then (.response (.error .invalidParams), s)
      else (.response (.ok .null), s.shutDown))
  | .exit => (.silent, { s with phase := .exited })
  | .cancelRequest => (.silent, s)
  | .query q => s.whenInitialized m (if m.isRequest then s.query m q else (.silent, s))
  | .event e => s.whenInitialized m (.silent, if m.isRequest then s else s.event m e)
  | .refused shape =>
    s.whenInitialized m
      (refuse m (if (m.params.map shape.fits).getD false then .methodNotFound else .invalidParams), s)
  | .ignored => s.whenInitialized m (.silent, s)

def listens (s : Service) : Service :=
  s.onDesk fun d => { d with connected := s.phase = .initialized ∨ s.phase = .shutDown }

def handle (s : Service) (m : Message) : Answer × Service :=
  if s.phase = .exited then (.closed, s)
  else match Method.ofName? m.method with
    | some method => s.listens.perform m method
    | none =>
      if m.method.startsWith "$/" then (.silent, s) else (refuse m .methodNotFound, s)

end Service

end TestExplorer.Server
