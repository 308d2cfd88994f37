import TestExplorer.Proofs.History
import TestExplorer.Proofs.Writes

set_option autoImplicit false

namespace TestExplorer

variable {σ : Type}

def warningsIn (source : String) : List Warning :=
  Document.warningsOf ((scan source).map (·.item))

def Document.remarks (d : Document) : Path × List Warning :=
  (d.path, d.warnings)

def Found.remarks (f : Found) : Path × List Warning :=
  (f.path, f.warnings)

theorem Document.warnings_eq_warningsIn (path : Path) (source : String) :
    (scan path source).warnings = warningsIn source :=
  warnings_scan path source

theorem Document.remarks_scan (path : Path) (source : String) :
    (scan path source).remarks = (path, warningsIn source) := by
  rw [remarks, warnings_eq_warningsIn]
  rfl

def Disk.documents (d : Disk) (paths : List Path) : List Document :=
  paths.filterMap fun path => (d.text path).map (Document.scan path)

def HostAction.isAboutDocuments : HostAction → Prop
  | .enumerate _ => True
  | .read _ => True
  | .note _ => True
  | .launch _ => False
  | .notify _ => False

namespace Document

theorem remarks_insertTest (path : Path) (suite : SuiteId) (i : Insertion) (mark : TestMark) :
    (insertTest path suite i mark).found.remarks = i.found.remarks := by
  simp only [insertTest]
  split <;> split <;> rfl

theorem remarks_insertUnit (path : Path) (i : Insertion) (unit : UnitMark) :
    (insertUnit path i unit).found.remarks = i.found.remarks := by
  have inside (suite : SuiteId) (i : Insertion) :
      (unit.tests.foldl (insertTest path suite) i).found.remarks = i.found.remarks :=
    List.foldlRecOn (motive := fun j => j.found.remarks = i.found.remarks) _ _ rfl
      fun j same mark _ => (remarks_insertTest path suite j mark).trans same
  unfold insertUnit
  split
  next => exact inside _ _
  next => exact inside _ _
  next => rfl

theorem remarks_insertInto (d : Document) (t : Tree) :
    (d.insertInto t).found.remarks = d.remarks :=
  List.foldlRecOn (motive := fun i => i.found.remarks = d.remarks) _ _ rfl
    fun i same unit _ => (remarks_insertUnit d.path i unit).trans same

end Document

section

variable (h : Activity.Host σ) (s : Engine × σ)

@[simp] theorem writes_insertDocument (d : Document) :
    (insertDocument d).writes h s = [.insert d] := by
  simp [insertDocument, TreeWrite.of?]

theorem remarks_insertDocument (d : Document) :
    ((insertDocument d).exec h s).1.remarks = d.remarks := by
  simp [insertDocument, Engine.perform, Document.remarks_insertInto]

/-! ## One document -/

def Controller.editWrites (c : Controller) (path : Path) (source : String) : List TreeWrite :=
  if c.recognizes path then [.evict path, .insert (Document.scan path source)] else []

def Controller.changeWrites (c : Controller) (d : Disk) (path : Path) : List TreeWrite :=
  if c.recognizes path then .evict path :: (d.documents [path]).map .insert else []

theorem writes_reconcileSource (c : Controller) (path : Path) (source : String) :
    (reconcileSource c.settings path source).writes h s = c.editWrites path source := by
  unfold reconcileSource Controller.editWrites Controller.recognizes
  split <;> simp [TreeWrite.of?]

theorem answer_reconcileSource (c : Controller) (path : Path) (source : String) :
    (((reconcileSource c.settings path source).exec h s).1.map Found.remarks) =
      if c.recognizes path then some (path, warningsIn source) else none := by
  unfold reconcileSource Controller.recognizes
  split
  next =>
    simp only [exec_holding, Activity.exec_bind, Activity.exec_pure, Option.map_some,
      remarks_insertDocument, Document.remarks_scan]
  next => rfl

end

@[simp] theorem Disk.documents_nil (d : Disk) : d.documents [] = [] := rfl

theorem Disk.documents_append (d : Disk) (a b : List Path) :
    d.documents (a ++ b) = d.documents a ++ d.documents b :=
  List.filterMap_append

theorem Disk.documents_singleton (d : Disk) (path : Path) :
    d.documents [path] = ((d.text path).map (Document.scan path)).toList := by
  cases found : d.text path <;> simp [documents, found]

namespace Activity.Host.Serves

variable {h : Activity.Host σ} {disk : σ → Disk} (serves : h.Serves disk) (s : Engine × σ)

include serves

theorem writes_reconcileFile (c : Controller) (path : Path) :
    (reconcileFile c.settings path).writes h s = c.changeWrites (disk s.2) path := by
  have answer := serves.reads path ({ s.1 with tree := s.1.tree.removeDocument path }, s.2)
  unfold reconcileFile Controller.changeWrites Controller.recognizes
  split
  next =>
    cases read : (disk s.2).read path <;>
      simp [scanFile, TreeWrite.of?, Engine.perform, answer, read, Disk.documents, Disk.text,
        Except.toOption]
  next => rfl

theorem answer_reconcileFile (c : Controller) (path : Path) :
    ((reconcileFile c.settings path).exec h s).1.map (·.map Found.remarks) =
      if c.recognizes path then
        match (disk s.2).read path with
        | .ok source => .ok (some (path, warningsIn source))
        | .error cause => .error (.read path cause)
      else .ok none := by
  have answer := serves.reads path ({ s.1 with tree := s.1.tree.removeDocument path }, s.2)
  unfold reconcileFile Controller.recognizes
  split
  next =>
    cases read : (disk s.2).read path <;>
      simp [scanFile, Engine.perform, answer, read, Except.map, remarks_insertDocument,
        Document.remarks_scan]
  next => rfl

/-! ## Discovery -/

theorem writes_discoverInFile (path : Path) :
    (TestExplorer.discoverInFile path).writes h s = ((disk s.2).documents [path]).map .insert := by
  have answer := serves.reads path s
  cases read : (disk s.2).read path <;>
    simp [TestExplorer.discoverInFile, scanFile, answer, read, Disk.documents, Disk.text,
      Except.toOption]

theorem files_add_discoverInFile (path : Path) (summary : Summary) :
    (summary.add ((TestExplorer.discoverInFile path).exec h s).1).files.map Found.remarks =
      summary.files.map Found.remarks ++ ((disk s.2).documents [path]).map Document.remarks := by
  have answer := serves.reads path s
  cases read : (disk s.2).read path <;>
    simp [TestExplorer.discoverInFile, scanFile, answer, read, Disk.documents, Disk.text,
      Except.toOption, Summary.add, remarks_insertDocument]

end Activity.Host.Serves

/-- The activity puts the documents into the tree, one after the other, and adds them to a summary. -/
def Activity.Adds (h : Activity.Host σ) (x : Activity Summary) (s : Engine × σ) (before : Summary)
    (documents : List Document) : Prop :=
  x.writes h s = documents.map .insert ∧
    (x.exec h s).1.files.map Found.remarks =
      before.files.map Found.remarks ++ documents.map Document.remarks

namespace Activity.Host.Serves

variable {h : Activity.Host σ} {disk : σ → Disk} (serves : h.Serves disk) (s : Engine × σ)

include serves

theorem discoverFiles_adds (files : List Path) (summary : Summary) :
    (TestExplorer.discoverFiles files summary).Adds h s summary ((disk s.2).documents files) := by
  induction files generalizing s summary with
  | nil => exact ⟨rfl, by simp [TestExplorer.discoverFiles]⟩
  | cons path rest ih =>
    let first := (TestExplorer.discoverInFile path).exec h s
    have here : disk first.2.2 = disk s.2 := serves.exec_disk _ s
    obtain ⟨writes, answer⟩ := ih first.2 (summary.add first.1)
    have parts : (disk s.2).documents (path :: rest) =
        (disk s.2).documents [path] ++ (disk s.2).documents rest :=
      (disk s.2).documents_append [path] rest
    rw [here] at writes answer
    rw [parts]
    constructor
    · simp only [TestExplorer.discoverFiles, writes_bind, serves.writes_discoverInFile, writes,
        List.map_append, first]
    · simp only [TestExplorer.discoverFiles, exec_bind, answer, first,
        serves.files_add_discoverInFile, List.map_append, List.append_assoc]

theorem discoverRoots_adds (roots : List Path) (summary : Summary) :
    (TestExplorer.discoverRoots roots summary).Adds h s summary
      ((disk s.2).documents ((disk s.2).files roots)) := by
  induction roots generalizing s summary with
  | nil => exact ⟨rfl, by simp [TestExplorer.discoverRoots, Disk.files]⟩
  | cons root rest ih =>
    have answer := serves.lists root s
    have still := serves.still (.enumerate root) s
    cases listed : (disk s.2).list root with
    | ok files =>
      have all : (disk s.2).files (root :: rest) = files ++ (disk s.2).files rest := by
        simp [Disk.files, listed, Except.toOption]
      let first := (TestExplorer.discoverFiles files summary).exec h (h (.enumerate root) s).2
      have here : disk first.2.2 = disk s.2 := (serves.exec_disk _ _).trans still
      obtain ⟨writes, answers⟩ := serves.discoverFiles_adds (h (.enumerate root) s).2 files summary
      obtain ⟨writes', answers'⟩ := ih first.2 first.1
      rw [still] at writes answers
      rw [here] at writes' answers'
      rw [all, Disk.documents_append]
      constructor
      · simp [TestExplorer.discoverRoots, answer, listed, writes, writes', first]
      · simpa [TestExplorer.discoverRoots, answer, listed, answers, first] using answers'
    | error error =>
      have all : (disk s.2).files (root :: rest) = (disk s.2).files rest := by
        simp [Disk.files, listed, Except.toOption]
      let noted := (h (.note [.failed error]) (h (.enumerate root) s).2).2
      have here : disk noted.2 = disk s.2 := (serves.still _ _).trans still
      obtain ⟨writes, answers⟩ := ih noted (summary.add (.error error))
      rw [here] at writes answers
      rw [all]
      constructor
      · simp [TestExplorer.discoverRoots, answer, listed, writes, noted]
      · simpa [TestExplorer.discoverRoots, answer, listed, noted, Summary.add] using answers

end Activity.Host.Serves

theorem writes_applyBuffers (h : Activity.Host σ) (c : Controller) (s : Engine × σ)
    (buffers : List (Path × String)) :
    (c.applyBuffers buffers).writes h s =
      buffers.flatMap fun (path, source) => c.editWrites path source := by
  induction buffers generalizing s with
  | nil => rfl
  | cons buffer rest ih =>
    simp only [Controller.applyBuffers, Activity.writes_bind, Activity.writes_discard,
      writes_reconcileSource, ih, List.flatMap_cons]

/-- What a discovery writes: the tree is cleared, takes every document that is read, and then takes
the buffers in their place. -/
def Controller.discoveryWrites (c : Controller) (d : Disk) (buffers : List (Path × String)) :
    List TreeWrite :=
  .clear :: ((d.documents (d.files c.roots)).map .insert ++
    buffers.flatMap fun (path, source) => c.editWrites path source)

namespace Activity.Host.Serves

variable {h : Activity.Host σ} {disk : σ → Disk} (serves : h.Serves disk) (c : Controller)
  (e : Engine) (w : σ)

include serves

theorem discoverWorkspace_outcome :
    let done := c.discoverWorkspace.exec h (e, w)
    c.discoverWorkspace.writes h (e, w) = c.discoveryWrites (disk w) e.buffers ∧
      done.1.files.map Found.remarks =
        ((disk w).documents ((disk w).files c.roots)).map Document.remarks ∧
      done.2.1.status = (e.discovered, [], e.disposed) := by
  intro done
  let cleared : Engine × σ := ({ e with tree := {} }, w)
  let listed := (discoverAll c.roots).exec h cleared
  let taken : Engine × σ := ({ listed.2.1 with buffers := [] }, listed.2.2)
  have adds : (discoverAll c.roots).Adds h cleared {}
      ((disk w).documents ((disk w).files c.roots)) := serves.discoverRoots_adds cleared c.roots {}
  have kept : listed.2.1.status = e.status :=
    serves.exec_status (keeps_discoverRoots c.roots {}) cleared
  have buffers : listed.2.1.buffers = e.buffers := congrArg (·.2.1) kept
  have discovered : listed.2.1.discovered = e.discovered := congrArg (·.1) kept
  have disposed : listed.2.1.disposed = e.disposed := congrArg (·.2.2) kept
  have run : done = (listed.1, ((c.applyBuffers listed.2.1.buffers).exec h taken).2) := by
    simp [done, Controller.discoverWorkspace, Engine.perform, taken, listed, cleared]
  refine ⟨?writes, ?answer, ?status⟩
  case writes =>
    have parts : c.discoverWorkspace.writes h (e, w) = .clear ::
        ((discoverAll c.roots).writes h cleared ++
          (c.applyBuffers listed.2.1.buffers).writes h taken) := by
      simp [Controller.discoverWorkspace, TreeWrite.of?, Engine.perform, taken, listed, cleared]
    rw [parts, adds.1, writes_applyBuffers, buffers]
    rfl
  case answer =>
    rw [run]
    exact adds.2
  case status =>
    rw [run, serves.exec_status (keeps_applyBuffers c _) taken]
    simp [Engine.status, taken, discovered, disposed]

/-! ## Requests -/

theorem resolve_outcome (live : e.disposed = false) (id : Option String) :
    (c.resolve id).writes h (e, w) =
        (if e.discovered then [] else c.discoveryWrites (disk w) e.buffers) ∧
      ((c.resolve id).exec h (e, w)).2.1.status =
        if e.discovered then e.status else (true, [], false) := by
  obtain ⟨writes, -, status⟩ := serves.discoverWorkspace_outcome c e w
  cases known : e.discovered with
  | true =>
    cases id <;> simp [Controller.resolve, Controller.live, Controller.ensureDiscovered,
      Engine.perform, TreeWrite.of?, live, known]
  | false =>
    have disposed : ((c.discoverWorkspace.exec h (e, w)).2.1).disposed = false :=
      (congrArg (·.2.2) status).trans live
    have buffers : ((c.discoverWorkspace.exec h (e, w)).2.1).buffers = [] :=
      congrArg (·.2.1) status
    cases id <;> simp [Controller.resolve, Controller.live, Controller.ensureDiscovered,
      Engine.perform, TreeWrite.of?, live, known, writes, Engine.status, disposed, buffers]

theorem reload_outcome (live : e.disposed = false) :
    c.reload.writes h (e, w) = c.discoveryWrites (disk w) e.buffers ∧
      (∃ summary, (c.reload.exec h (e, w)).1 = .ok summary ∧ summary.files.map Found.remarks =
        ((disk w).documents ((disk w).files c.roots)).map Document.remarks) ∧
      (c.reload.exec h (e, w)).2.1.status = (true, [], false) := by
  obtain ⟨writes, answer, status⟩ := serves.discoverWorkspace_outcome c e w
  have disposed : ((c.discoverWorkspace.exec h (e, w)).2.1).disposed = false :=
    (congrArg (·.2.2) status).trans live
  have buffers : ((c.discoverWorkspace.exec h (e, w)).2.1).buffers = [] :=
    congrArg (·.2.1) status
  refine ⟨?writes, ⟨(c.discoverWorkspace.exec h (e, w)).1, ?answer, answer⟩, ?status⟩
  case writes => simp [Controller.reload, Controller.live, Engine.perform, TreeWrite.of?, live, writes]
  case answer => simp [Controller.reload, Controller.live, Engine.perform, live]
  case status =>
    simp [Controller.reload, Controller.live, Engine.perform, live, Engine.status, disposed, buffers]

theorem documentEdited_outcome (live : e.disposed = false) (path : Path) (source : String) :
    let request := c.documentEdited path source
    let done := request.exec h (e, w)
    request.writes h (e, w) = c.editWrites path source ∧
      done.1.map (·.map Found.remarks) =
        .ok (if c.recognizes path then some (path, warningsIn source) else none) ∧
      done.2.1.status =
        (e.discovered,
          if ¬ e.discovered ∧ c.recognizes path then Engine.withBuffer path source e.buffers
          else e.buffers, false) := by
  intro request done
  let marked : Engine :=
    if ¬ e.discovered ∧ c.recognizes path then
      { e with buffers := Engine.withBuffer path source e.buffers } else e
  have status : marked.status = (e.discovered,
      if ¬ e.discovered ∧ c.recognizes path then Engine.withBuffer path source e.buffers
      else e.buffers, false) := by
    simp only [marked]
    split <;> simp [Engine.status, live]
  let body := reconcileSource c.settings path source
  have run : done = (.ok (body.exec h (marked, w)).1, (body.exec h (marked, w)).2) := by
    cases known : e.discovered <;> cases recognized : c.recognizes path <;>
      simp [done, request, body, Controller.documentEdited, Controller.live, marked, known,
        recognized, live, Engine.perform]
  refine ⟨?writes, ?answer, ?status⟩
  case writes =>
    cases known : e.discovered <;> cases recognized : c.recognizes path <;>
      simp [request, Controller.documentEdited, Controller.live, known, recognized, live,
        Engine.perform, TreeWrite.of?, writes_reconcileSource]
  case answer =>
    rw [run]
    exact congrArg Except.ok (answer_reconcileSource h (marked, w) c path source)
  case status =>
    rw [run, ← status]
    exact serves.exec_status (keeps_reconcileSource c.settings path source) (marked, w)

theorem documentChanged_outcome (live : e.disposed = false) (path : Path) :
    let request := c.documentChanged path
    let done := request.exec h (e, w)
    request.writes h (e, w) = c.changeWrites (disk w) path ∧
      done.1.map (·.map Found.remarks) =
        (if c.recognizes path then
          match (disk w).read path with
          | .ok source => .ok (some (path, warningsIn source))
          | .error cause => .error (.read path cause)
        else .ok none) ∧
      done.2.1.status =
        (e.discovered, if e.discovered then e.buffers else Engine.withoutBuffer path e.buffers,
          false) := by
  intro request done
  let marked : Engine :=
    if e.discovered then e else { e with buffers := Engine.withoutBuffer path e.buffers }
  have status : marked.status = (e.discovered,
      if e.discovered then e.buffers else Engine.withoutBuffer path e.buffers, false) := by
    cases known : e.discovered <;> simp [marked, known, Engine.status, live]
  let body := reconcileFile c.settings path
  have run : done = body.exec h (marked, w) := by
    cases known : e.discovered <;>
      simp [done, request, body, Controller.documentChanged, Controller.live, marked, known, live,
        Engine.perform]
  refine ⟨?writes, ?answer, ?status⟩
  case writes =>
    cases known : e.discovered <;>
      simp [request, Controller.documentChanged, Controller.live, known, live, Engine.perform,
        TreeWrite.of?, serves.writes_reconcileFile]
  case answer =>
    rw [run]
    exact serves.answer_reconcileFile (marked, w) c path
  case status =>
    rw [run, ← status]
    exact serves.exec_status (keeps_reconcileFile c.settings path) (marked, w)

end Activity.Host.Serves

/-! ## What requests are made of -/

-- Runs are left alone: their lock, the active one and all flags.
def StateAction.isAboutDocuments : StateAction → Prop
  | .acquire .runs | .release .runs => False
  | .markDisposed | .setActive _ | .cancelActive | .isRaised _ | .raise _ => False
  | _ => True

theorem Engine.perform_aboutDocuments {action : StateAction} (about : action.isAboutDocuments)
    (e : Engine) :
    (e.perform action).2.active = e.active ∧ (e.perform action).2.raised = e.raised ∧
      (e.perform action).2.disposed = e.disposed := by
  cases action <;> first | exact ⟨rfl, rfl, rfl⟩ | exact about.elim

abbrev Activity.AboutDocuments {α : Type} (x : Activity α) : Prop :=
  x.Within StateAction.isAboutDocuments HostAction.isAboutDocuments

section

open Activity

theorem aboutDocuments_scanFile (path : Path) : (scanFile path).AboutDocuments := by
  refine ⟨trivial, fun answer => ?_⟩
  cases answer <;> trivial

theorem aboutDocuments_insertDocument (d : Document) : (insertDocument d).AboutDocuments :=
  ⟨trivial, fun _ => ⟨trivial, fun _ => trivial⟩⟩

theorem aboutDocuments_discoverInFile (path : Path) : (discoverInFile path).AboutDocuments := by
  refine (aboutDocuments_scanFile path).bind fun scanned => ?_
  cases scanned with
  | ok document =>
    exact ((aboutDocuments_insertDocument document).holding .tree trivial trivial).bind fun _ => trivial
  | error error => exact ⟨trivial, fun _ => trivial⟩

theorem aboutDocuments_discoverFiles (files : List Path) (summary : Summary) :
    (discoverFiles files summary).AboutDocuments := by
  induction files generalizing summary with
  | nil => trivial
  | cons path rest ih => exact (aboutDocuments_discoverInFile path).bind fun _ => ih _

theorem aboutDocuments_discoverRoots (roots : List Path) (summary : Summary) :
    (discoverRoots roots summary).AboutDocuments := by
  induction roots generalizing summary with
  | nil => trivial
  | cons root rest ih =>
    refine ⟨trivial, fun listed => ?_⟩
    cases listed with
    | ok files => exact (aboutDocuments_discoverFiles files summary).bind fun _ => ih _
    | error error => exact ⟨trivial, fun _ => ih _⟩

theorem aboutDocuments_reconcileSource (settings : DiscoverySettings) (path : Path)
    (source : String) : (reconcileSource settings path source).AboutDocuments := by
  unfold reconcileSource
  split
  next =>
    refine Within.holding ?_ .tree trivial trivial
    refine ⟨trivial, fun _ => ?_⟩
    exact (aboutDocuments_insertDocument _).bind fun _ => trivial
  next => trivial

theorem aboutDocuments_reconcileFile (settings : DiscoverySettings) (path : Path) :
    (reconcileFile settings path).AboutDocuments := by
  unfold reconcileFile
  split
  next =>
    refine Within.holding ?_ .tree trivial trivial
    refine ⟨trivial, fun _ => ?_⟩
    refine (aboutDocuments_scanFile path).bind fun scanned => ?_
    cases scanned with
    | ok document => exact (aboutDocuments_insertDocument document).bind fun _ => trivial
    | error error => exact ⟨trivial, fun _ => trivial⟩
  next => trivial

variable (c : Controller)

theorem aboutDocuments_applyBuffers (buffers : List (Path × String)) :
    (c.applyBuffers buffers).AboutDocuments := by
  induction buffers with
  | nil => trivial
  | cons buffer rest ih =>
    exact ((aboutDocuments_reconcileSource c.settings buffer.1 buffer.2).map _).bind fun _ => ih

theorem aboutDocuments_discoverWorkspace : c.discoverWorkspace.AboutDocuments := by
  refine ((within_stateStep trivial).holding .tree trivial trivial).bind fun _ => ?_
  refine (aboutDocuments_discoverRoots c.roots {}).bind fun summary => ?_
  exact ⟨trivial, fun buffers => (aboutDocuments_applyBuffers c buffers).bind fun _ => trivial⟩

theorem aboutDocuments_ensureDiscovered : c.ensureDiscovered.AboutDocuments := by
  refine Within.holding ?_ .discovery trivial trivial
  refine ⟨trivial, fun discovered => ?_⟩
  cases discovered with
  | true => trivial
  | false =>
    exact ((aboutDocuments_discoverWorkspace c).map _).bind fun _ => within_stateStep trivial

theorem Activity.AboutDocuments.live {α : Type} {body : Activity (Except EngineError α)}
    (about : body.AboutDocuments) : (Controller.live body).AboutDocuments := by
  refine ⟨trivial, fun disposed => ?_⟩
  cases disposed with
  | true => trivial
  | false => exact about

theorem aboutDocuments_resolve (id : Option String) : (c.resolve id).AboutDocuments := by
  refine AboutDocuments.live ((aboutDocuments_ensureDiscovered c).bind fun _ => ?_)
  refine ((within_stateStep trivial).holding .tree trivial trivial).bind fun tree => ?_
  cases id <;> trivial

theorem aboutDocuments_reload : c.reload.AboutDocuments := by
  refine AboutDocuments.live (Within.holding ?_ .discovery trivial trivial)
  exact (aboutDocuments_discoverWorkspace c).bind fun summary => ⟨trivial, fun _ => trivial⟩

theorem aboutDocuments_documentChanged (path : Path) : (c.documentChanged path).AboutDocuments := by
  refine AboutDocuments.live (Within.bind (Within.holding ?marking .discovery trivial trivial) fun _ => ?_)
  case marking =>
    refine ⟨trivial, fun discovered => ?_⟩
    cases discovered with
    | true => trivial
    | false => exact within_stateStep trivial
  exact aboutDocuments_reconcileFile c.settings path

theorem aboutDocuments_documentEdited (path : Path) (source : String) :
    (c.documentEdited path source).AboutDocuments := by
  refine AboutDocuments.live (Within.bind (Within.holding ?marking .discovery trivial trivial) fun _ => ?_)
  case marking =>
    refine ⟨trivial, fun discovered => ?_⟩
    cases discovered with
    | true => trivial
    | false =>
      cases c.recognizes path with
      | true => exact within_stateStep trivial
      | false => trivial
  exact (aboutDocuments_reconcileSource c.settings path source).bind fun _ => trivial

theorem uses_resolve (id : Option String) : (c.resolve id).Uses HostAction.isAboutDocuments :=
  (aboutDocuments_resolve c id).uses

theorem uses_reload : c.reload.Uses HostAction.isAboutDocuments :=
  (aboutDocuments_reload c).uses

theorem uses_documentChanged (path : Path) :
    (c.documentChanged path).Uses HostAction.isAboutDocuments :=
  (aboutDocuments_documentChanged c path).uses

theorem uses_documentEdited (path : Path) (source : String) :
    (c.documentEdited path source).Uses HostAction.isAboutDocuments :=
  (aboutDocuments_documentEdited c path source).uses

end

end TestExplorer
