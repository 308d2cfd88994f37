import TestExplorer.Proofs.Buffers
import TestExplorer.Proofs.Reconciliation

set_option autoImplicit false

namespace TestExplorer

structure Disk where
  list : Path → Except EngineError (List Path)
  read : Path → Except IoError String

namespace Disk

def files (d : Disk) (roots : List Path) : List Path :=
  roots.flatMap fun root => (d.list root).toOption.getD []

def text (d : Disk) (path : Path) : Option String :=
  (d.read path).toOption

def listedText (d : Disk) (roots : List Path) (path : Path) : Option String :=
  if path ∈ d.files roots then d.text path else none

end Disk

namespace Engine

-- What requests share about discovery, apart from the tree.
def status (e : Engine) : Bool × List (Path × String) × Bool :=
  (e.discovered, e.buffers, e.disposed)

-- What requests share about documents. The rest is about runs.
def core (e : Engine) : Tree × Bool × List (Path × String) × Bool :=
  (e.tree, e.status)

end Engine

variable {σ : Type}

/-- The host lists and reads the disk of its world. It may raise flags at any moment, but neither
the disk nor what is shared about documents changes in its steps. -/
structure Activity.Host.Serves (h : Activity.Host σ) (disk : σ → Disk) : Prop where
  lists : ∀ root s, (h (.enumerate root) s).1 = (disk s.2).list root
  reads : ∀ path s, (h (.read path) s).1 = (disk s.2).read path
  keeps : ∀ action s, (h action s).2.1.core = s.1.core
  still : ∀ action s, disk (h action s).2.2 = disk s.2

def Rehearsal.disk [Walker] (r : Rehearsal) : Disk where
  list root := (listSources r.site r.controller.settings root).1
  read := r.readDocument

theorem Rehearsal.quietHost_serves [Walker] : quietHost.Serves disk where
  lists _ _ := rfl
  reads _ _ := rfl
  keeps action s := by
    cases action <;> simp only [quietHost]
    split <;> rfl
  still action s := by cases action <;> rfl

namespace Activity.Host.Serves

variable {h : Activity.Host σ} {disk : σ → Disk} (serves : h.Serves disk)

include serves

theorem reading : h.Reading fun w path => (disk w).read path where
  answers path e w := serves.reads path (e, w)
  readKeeps path s := congrArg Prod.fst (serves.keeps (.read path) s)
  noteKeeps notices s := congrArg Prod.fst (serves.keeps (.note notices) s)

theorem exec_disk {α : Type} (x : Activity α) (s : Engine × σ) :
    disk (x.exec h s).2.2 = disk s.2 :=
  Activity.exec_world h s x serves.still

theorem exec_status {α : Type} {x : Activity α} (kept : x.Keeps Engine.status) (s : Engine × σ) :
    (x.exec h s).2.1.status = s.1.status :=
  kept.exec h s fun action s => congrArg Prod.snd (serves.keeps action s)

theorem exec_core {α : Type} {x : Activity α} (kept : x.Keeps Engine.core) (s : Engine × σ) :
    (x.exec h s).2.1.core = s.1.core :=
  kept.exec h s serves.keeps

end Activity.Host.Serves

section

open Activity

theorem keeps_insertDocument (d : Document) : (insertDocument d).Keeps Engine.status :=
  Keeps.bind (keeps_stateStep fun _ => rfl) fun _ => fun _ => trivial

theorem keeps_scanFile {γ : Type} {view : Engine → γ} (path : Path) :
    (scanFile path).Keeps view := by
  intro answer
  cases answer <;> trivial

theorem keeps_discoverInFile (path : Path) : (discoverInFile path).Keeps Engine.status := by
  refine (keeps_scanFile path).bind fun scanned => ?_
  cases scanned with
  | ok document => exact ((keeps_insertDocument document).holding .tree).bind fun _ => trivial
  | error error => exact fun _ => trivial

theorem keeps_discoverFiles (files : List Path) (summary : Summary) :
    (discoverFiles files summary).Keeps Engine.status := by
  induction files generalizing summary with
  | nil => trivial
  | cons path rest ih => exact (keeps_discoverInFile path).bind fun _ => ih _

theorem keeps_discoverRoots (roots : List Path) (summary : Summary) :
    (discoverRoots roots summary).Keeps Engine.status := by
  induction roots generalizing summary with
  | nil => trivial
  | cons root rest ih =>
    intro listed
    cases listed with
    | ok files => exact (keeps_discoverFiles files summary).bind fun _ => ih _
    | error error => exact fun _ => ih _

theorem keeps_reconcileSource (settings : DiscoverySettings) (path : Path) (source : String) :
    (reconcileSource settings path source).Keeps Engine.status := by
  unfold reconcileSource
  split
  next =>
    refine Keeps.holding (Keeps.bind (keeps_stateStep fun _ => rfl) fun _ => ?_) .tree
    exact (keeps_insertDocument _).bind fun _ => trivial
  next => trivial

theorem keeps_reconcileFile (settings : DiscoverySettings) (path : Path) :
    (reconcileFile settings path).Keeps Engine.status := by
  unfold reconcileFile
  split
  next =>
    refine Keeps.holding (Keeps.bind (keeps_stateStep fun _ => rfl) fun _ => ?_) .tree
    refine (keeps_scanFile path).bind fun scanned => ?_
    cases scanned with
    | ok document => exact (keeps_insertDocument document).bind fun _ => trivial
    | error error => exact fun _ => trivial
  next => trivial

theorem keeps_applyBuffers (c : Controller) (buffers : List (Path × String)) :
    (c.applyBuffers buffers).Keeps Engine.status := by
  induction buffers with
  | nil => trivial
  | cons buffer rest ih =>
    exact ((keeps_reconcileSource c.settings buffer.1 buffer.2).map _).bind fun _ => ih

end

namespace Activity.Host.Serves

variable {h : Activity.Host σ} {disk : σ → Disk} (serves : h.Serves disk)
  {docs : Path → Prop} (documents : Documents docs) {s : Engine × σ} {text : Path → Option String}

include serves documents

theorem discoverInFile (composed : s.1.tree.Composed docs text) {path : Path} (doc : docs path)
    (absent : text path = none) :
    ((discoverInFile path).exec h s).2.1.tree.Composed docs
      (Function.update text path ((disk s.2).text path)) := by
  have answer := serves.reads path s
  have scanned : (h (.read path) s).2.1.tree = s.1.tree := serves.reading.readKeeps path s
  cases read : (disk s.2).read path with
  | ok source =>
    have inserted := serves.reading.insertDocument (Document.scan path source) (h (.read path) s).2
    have added := composed.insertInto documents doc absent source
    rw [scanned] at inserted
    rw [← inserted.2] at added
    simpa [TestExplorer.discoverInFile, scanFile, answer, read, Disk.text, Except.toOption]
      using added
  | error cause =>
    have kept : Function.update text path none = text := by
      rw [← absent, Function.update_eq_self]
    simpa [TestExplorer.discoverInFile, scanFile, answer, read, Disk.text, Except.toOption, kept,
      serves.reading.noteKeeps, scanned] using composed

theorem discoverFiles (composed : s.1.tree.Composed docs text) {files : List Path}
    (distinct : files.Nodup) (within : ∀ p ∈ files, docs p) (absent : ∀ p ∈ files, text p = none)
    (summary : Summary) :
    ((discoverFiles files summary).exec h s).2.1.tree.Composed docs fun p =>
      if p ∈ files then (disk s.2).text p else text p := by
  induction files generalizing s text summary with
  | nil => simpa [TestExplorer.discoverFiles] using composed
  | cons path rest ih =>
    have ⟨fresh, distinct'⟩ := List.nodup_cons.1 distinct
    have first := serves.discoverInFile documents composed (within path List.mem_cons_self)
      (absent path List.mem_cons_self)
    have here := serves.exec_disk (TestExplorer.discoverInFile path) s
    have later := ih first distinct' (fun p member => within p (List.mem_cons_of_mem _ member))
      (fun p member => by
        have other : p ≠ path := fun same => fresh (same ▸ member)
        simpa [other] using absent p (List.mem_cons_of_mem _ member))
      (summary.add ((TestExplorer.discoverInFile path).exec h s).1)
    simp only [TestExplorer.discoverFiles, exec_bind]
    refine later.congr fun p => ?_
    by_cases same : p = path
    · subst same
      simp [fresh]
    · simp [same, here]

theorem discoverRoots (composed : s.1.tree.Composed docs text) {roots : List Path}
    (distinct : ((disk s.2).files roots).Nodup) (within : ∀ p ∈ (disk s.2).files roots, docs p)
    (absent : ∀ p ∈ (disk s.2).files roots, text p = none) (summary : Summary) :
    ((discoverRoots roots summary).exec h s).2.1.tree.Composed docs fun p =>
      if p ∈ (disk s.2).files roots then (disk s.2).text p else text p := by
  induction roots generalizing s text summary with
  | nil => simpa [TestExplorer.discoverRoots, Disk.files] using composed
  | cons root rest ih =>
    have answer := serves.lists root s
    have still := serves.still (.enumerate root) s
    have kept : (h (.enumerate root) s).2.1.tree = s.1.tree :=
      congrArg Prod.fst (serves.keeps (.enumerate root) s)
    rw [← kept] at composed
    cases listed : (disk s.2).list root with
    | ok files =>
      have all : (disk s.2).files (root :: rest) = files ++ (disk s.2).files rest := by
        simp [Disk.files, listed, Except.toOption]
      rw [all] at distinct within absent ⊢
      obtain ⟨distinctFiles, distinctRest, apart⟩ := List.nodup_append'.1 distinct
      have first := serves.discoverFiles documents composed distinctFiles
        (fun p member => within p (List.mem_append_left _ member))
        (fun p member => absent p (List.mem_append_left _ member)) summary
      have here := (serves.exec_disk (TestExplorer.discoverFiles files summary)
        (h (.enumerate root) s).2).trans still
      rw [still] at first
      rw [← here] at distinctRest within absent apart
      have later := ih first distinctRest
        (fun p member => within p (List.mem_append_right _ member))
        (fun p member => by
          have other : p ∉ files := fun found => apart found member
          simpa [other] using absent p (List.mem_append_right _ member))
        ((TestExplorer.discoverFiles files summary).exec h (h (.enumerate root) s).2).1
      rw [here] at later
      simp only [TestExplorer.discoverRoots, exec_bind, hostStep, exec_host, exec_done, answer,
        listed]
      refine later.congr fun p => ?_
      by_cases early : p ∈ files <;> by_cases late : p ∈ (disk s.2).files rest <;>
        simp [early, late]
    | error error =>
      have all : (disk s.2).files (root :: rest) = (disk s.2).files rest := by
        simp [Disk.files, listed, Except.toOption]
      rw [all] at distinct within absent ⊢
      let after := (h (.note [.failed error]) (h (.enumerate root) s).2).2
      have here : disk after.2 = disk s.2 := (serves.still _ _).trans still
      have composed' : after.1.tree.Composed docs text := by
        rwa [serves.reading.noteKeeps]
      rw [← here] at distinct within absent ⊢
      simpa [TestExplorer.discoverRoots, answer, listed] using
        ih composed' distinct within absent (summary.add (.error error))

theorem applyBuffers {c : Controller} (composed : s.1.tree.Composed docs text)
    {buffers : List (Path × String)} {edits : Path → Option String}
    (buffered : c.Buffered docs buffers edits) :
    ((c.applyBuffers buffers).exec h s).2.1.tree.Composed docs fun p => (edits p).or (text p) := by
  induction buffers generalizing s text edits with
  | nil =>
    refine Tree.Composed.congr (by simpa [Controller.applyBuffers] using composed) fun p => ?_
    simp [← buffered.lookup p]
  | cons buffer rest ih =>
    obtain ⟨path, source⟩ := buffer
    have ⟨fresh, distinct⟩ := List.nodup_cons.1 buffered.distinct
    have ⟨doc, recognized⟩ := buffered.within path List.mem_cons_self
    have replaced := composed.replaced documents doc (some source)
    have applied := serves.reading.reconcileSource recognized (documents.plain path doc)
      (composed.owned documents) source
    rw [← applied.2] at replaced
    have buffered' : c.Buffered docs rest (rest.lookup ·) :=
      ⟨distinct, fun p member => buffered.within p (List.mem_cons_of_mem _ member), fun _ => rfl⟩
    simp only [Controller.applyBuffers, exec_bind, exec_discard]
    refine (ih replaced buffered').congr fun p => ?_
    rw [← buffered.lookup p, lookup_cons_of]
    by_cases same : p = path
    · subst same
      have absent : rest.lookup p = none := by
        simpa [List.lookup_eq_none_iff] using fun q old member same => fresh (by simp_all)
      simp [absent]
    · simp [same]

theorem discoverWorkspace {c : Controller} {edits : Path → Option String}
    (buffered : c.Buffered docs s.1.buffers edits)
    (distinct : ((disk s.2).files c.roots).Nodup)
    (within : ∀ p ∈ (disk s.2).files c.roots, docs p) :
    let after := (c.discoverWorkspace.exec h s).2
    after.1.tree.Composed docs (fun p => (edits p).or ((disk s.2).listedText c.roots p)) ∧
      after.1.status = (s.1.discovered, [], s.1.disposed) := by
  intro after
  let cleared : Engine × σ := ({ s.1 with tree := {} }, s.2)
  let listed := ((discoverAll c.roots).exec h cleared).2
  let taken : Engine × σ := ({ listed.1 with buffers := [] }, listed.2)
  have kept : listed.1.status = cleared.1.status :=
    serves.exec_status (keeps_discoverRoots c.roots {}) cleared
  have buffers : listed.1.buffers = s.1.buffers := congrArg (·.2.1) kept
  have run : after = ((c.applyBuffers listed.1.buffers).exec h taken).2 := by
    simp [after, Controller.discoverWorkspace, Engine.perform, taken, listed, cleared]
  have empty : cleared.1.tree.Composed docs fun _ => none := Tree.composed_empty docs
  have found := serves.discoverRoots documents empty distinct within (fun _ _ => rfl) {}
  have composed : taken.1.tree.Composed docs ((disk s.2).listedText c.roots) := found
  rw [← buffers] at buffered
  rw [run]
  constructor
  · exact serves.applyBuffers documents composed buffered
  · rw [serves.exec_status (keeps_applyBuffers c _) taken]
    have discovered : listed.1.discovered = s.1.discovered := congrArg (·.1) kept
    have disposed : listed.1.disposed = s.1.disposed := congrArg (·.2.2) kept
    simp [Engine.status, taken, discovered, disposed]

end Activity.Host.Serves

end TestExplorer
