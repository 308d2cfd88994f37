import TestExplorer.Controller.Rehearsal
import TestExplorer.Frontend
import TestExplorer.Ignore.Listing
import TestExplorer.Proofs.Execution
import TestExplorer.Proofs.Tree.Replacement

set_option autoImplicit false

namespace TestExplorer

variable {σ : Type}

-- The tree is held while a document is read and logged, so neither changes it.
structure Activity.Host.Reading (h : Activity.Host σ) (reader : σ → Path → Except IoError String) :
    Prop where
  answers : ∀ path e w, (h (.read path) (e, w)).1 = reader w path
  readKeeps : ∀ path s, (h (.read path) s).2.1.tree = s.1.tree
  noteKeeps : ∀ notices s, (h (.note notices) s).2.1.tree = s.1.tree

theorem Frontend.host_reading [Walker] [Processes] (f : Frontend σ) :
    f.host.Reading fun w path => (f.site w).fs.readSource (f.site w).here path where
  answers _ _ _ := rfl
  readKeeps _ _ := rfl
  noteKeeps _ _ := rfl

theorem Rehearsal.quietHost_reading [Walker] : quietHost.Reading readDocument where
  answers _ _ _ := rfl
  readKeeps _ _ := rfl
  noteKeeps _ _ := rfl

inductive Update where
  | edited (path : Path) (source : String)
  | changed (path : Path)

namespace Update

def path : Update → Path
  | edited path _ => path
  | changed path => path

def run (settings : DiscoverySettings) : Update → Activity (Except EngineError (Option Found))
  | edited path source => .ok <$> reconcileSource settings path source
  | changed path => reconcileFile settings path

def text (reader : σ → Path → Except IoError String) (w : σ) : Update → Except IoError String
  | edited _ source => .ok source
  | changed path => reader w path

def answer (path : Path) : Except IoError String → Except EngineError (Option Found)
  | .ok source => .ok (some (Document.fresh path source).found)
  | .error cause => .error (.read path cause)

end Update

namespace Activity.Host.Reading

variable {h : Activity.Host σ} {reader : σ → Path → Except IoError String}

theorem insertDocument (reading : h.Reading reader) (d : Document) (s : Engine × σ) :
    ((insertDocument d).exec h s).1 = (d.insertInto s.1.tree).found ∧
      ((insertDocument d).exec h s).2.1.tree = (d.insertInto s.1.tree).tree := by
  simp [TestExplorer.insertDocument, Engine.perform, reading.noteKeeps]

variable {settings : DiscoverySettings} {path : Path} {s : Engine × σ}

theorem reconcileSource (reading : h.Reading reader) (recognized : settings.recognizes path)
    (plain : path.Plain) (owned : s.1.tree.Owned) (source : String) :
    ((reconcileSource settings path source).exec h s).1 =
        some (Document.fresh path source).found ∧
      ((reconcileSource settings path source).exec h s).2.1.tree =
        s.1.tree.replaced path (some source) := by
  have replaced := Document.replaceIn_fresh owned plain source
  have inserted := reading.insertDocument (Document.scan path source)
    ({ s.1 with tree := s.1.tree.removeDocument path }, s.2)
  simp only [Document.replaceIn, Document.path_scan] at replaced
  rw [replaced] at inserted
  simpa [TestExplorer.reconcileSource, recognized, Engine.perform, Tree.replaced_some]
    using inserted

theorem reconcileFile_ok (reading : h.Reading reader) (recognized : settings.recognizes path)
    (plain : path.Plain) (owned : s.1.tree.Owned) {source : String}
    (read : reader s.2 path = .ok source) :
    ((reconcileFile settings path).exec h s).1 =
        .ok (some (Document.fresh path source).found) ∧
      ((reconcileFile settings path).exec h s).2.1.tree =
        s.1.tree.replaced path (some source) := by
  let evicted : Engine × σ := ({ s.1 with tree := s.1.tree.removeDocument path }, s.2)
  have answer : (h (.read path) evicted).1 = .ok source := by rw [reading.answers, ← read]
  have replaced := Document.replaceIn_fresh owned plain source
  have inserted := reading.insertDocument (Document.scan path source) (h (.read path) evicted).2
  simp only [Document.replaceIn, Document.path_scan] at replaced
  rw [reading.readKeeps, replaced] at inserted
  simpa [reconcileFile, scanFile, recognized, Engine.perform, evicted, answer, Tree.replaced_some]
    using inserted

theorem reconcileFile_error (reading : h.Reading reader) (recognized : settings.recognizes path)
    {cause : IoError} (read : reader s.2 path = .error cause) :
    ((reconcileFile settings path).exec h s).1 = .error (.read path cause) ∧
      ((reconcileFile settings path).exec h s).2.1.tree = s.1.tree.removeDocument path := by
  let evicted : Engine × σ := ({ s.1 with tree := s.1.tree.removeDocument path }, s.2)
  have answer : (h (.read path) evicted).1 = .error cause := by rw [reading.answers, ← read]
  simp [reconcileFile, scanFile, recognized, Engine.perform, evicted, answer, reading.noteKeeps,
    reading.readKeeps]

theorem update (reading : h.Reading reader) {u : Update} (recognized : settings.recognizes u.path)
    (plain : u.path.Plain) (owned : s.1.tree.Owned) :
    ((u.run settings).exec h s).1 = Update.answer u.path (u.text reader s.2) ∧
      ((u.run settings).exec h s).2.1.tree =
        s.1.tree.replaced u.path (u.text reader s.2).toOption := by
  cases u with
  | edited path source =>
    simpa [Update.path, Update.run, Update.text, Update.answer, Except.toOption]
      using reading.reconcileSource recognized plain owned source
  | changed path =>
    cases read : reader s.2 path with
    | ok source =>
      simpa [Update.path, Update.run, Update.text, Update.answer, Except.toOption, read]
        using reading.reconcileFile_ok recognized plain owned read
    | error cause =>
      simpa [Update.path, Update.run, Update.text, Update.answer, Except.toOption, read]
        using reading.reconcileFile_error recognized read

theorem update_update (reading : h.Reading reader) {u v : Update}
    (recognized : settings.recognizes u.path) (recognized' : settings.recognizes v.path)
    (plain : u.path.Plain) (plain' : v.path.Plain) (owned : s.1.tree.Owned) :
    let after := ((u.run settings).exec h s).2
    ((v.run settings).exec h after).1 = Update.answer v.path (v.text reader after.2) ∧
      ((v.run settings).exec h after).2.1.tree =
        (s.1.tree.replaced u.path (u.text reader s.2).toOption).replaced v.path
          (v.text reader after.2).toOption := by
  intro after
  have first := (reading.update recognized plain owned).2
  have owned' : after.1.tree.Owned := by
    rw [first]
    exact owned.replaced plain _
  have second := reading.update recognized' plain' owned'
  rwa [first] at second

end Activity.Host.Reading

/-- Reconciling a document at a plain path leaves the suites of the other documents, each as it was
and in their order, and then those of the new text, as the empty tree takes them. -/
theorem reconcile_replaces {h : Activity.Host σ} {reader : σ → Path → Except IoError String}
    (reading : h.Reading reader) (settings : DiscoverySettings) (path : Path) (s : Engine × σ)
    (built : s.1.tree.Built) :
    let kept := s.1.tree.suites.filter fun old => ¬ old.path.Same path
    let after (u : Update) (s : Engine × σ) := ((u.run settings).exec h s).2
    (settings.recognizes path → path.Plain →
      (∀ source,
        let fresh := (Document.scan path source).insertInto {}
        let edited := (reconcileSource settings path source).exec h s
        let changed := (reconcileFile settings path).exec h s
        edited.1 = some fresh.found ∧ edited.2.1.tree = ⟨kept ++ fresh.tree.suites⟩ ∧
          (reader s.2 path = .ok source → changed.1 = .ok (some fresh.found) ∧
            changed.2.1.tree = ⟨kept ++ fresh.tree.suites⟩)) ∧
      (∀ cause,
        let changed := (reconcileFile settings path).exec h s
        reader s.2 path = .error cause →
          changed.1 = .error (.read path cause) ∧ changed.2.1.tree = ⟨kept⟩) ∧
      -- The last text wins, whatever reconciliation came before it.
      (∀ first second : Update, first.path = path → second.path = path →
        second.text reader (after first s).2 = second.text reader s.2 →
          ((second.run settings).exec h (after first s)).1 = ((second.run settings).exec h s).1 ∧
            (after second (after first s)).1.tree = (after second s).1.tree) ∧
      -- Reconciliations of different documents commute up to the order of the blocks.
      (∀ first second : Update, first.path = path → settings.recognizes second.path →
        second.path.Plain → ¬ second.path.Same path →
        second.text reader (after first s).2 = second.text reader s.2 →
        first.text reader (after second s).2 = first.text reader s.2 →
          let rest := kept.filter fun old => ¬ old.path.Same second.path
          let own := Document.blockOf path (first.text reader s.2).toOption
          let other := Document.blockOf second.path (second.text reader s.2).toOption
          (after second (after first s)).1.tree = ⟨rest ++ own ++ other⟩ ∧
            (after first (after second s)).1.tree = ⟨rest ++ other ++ own⟩)) ∧
    (settings.recognizes path = false →
      let changed := (reconcileFile settings path).exec h s
      changed.1 = .ok none ∧ changed.2.1.tree = s.1.tree ∧
        ∀ source,
          let edited := (reconcileSource settings path source).exec h s
          edited.1 = none ∧ edited.2.1.tree = s.1.tree) := by
  intro kept after
  have owned := built.owned
  refine ⟨fun recognized plain => ⟨?texts, ?unread, ?last, ?commute⟩, fun unknown => ?unknown⟩
  case texts =>
    intro source fresh edited changed
    have done := reading.reconcileSource recognized plain owned source
    exact ⟨done.1, done.2, fun read => reading.reconcileFile_ok recognized plain owned read⟩
  case unread =>
    intro cause changed read
    exact reading.reconcileFile_error recognized read
  case last =>
    intro first second here here' text
    subst here
    have recognized' : settings.recognizes second.path := here' ▸ recognized
    have plain' : second.path.Plain := here' ▸ plain
    have same : first.path.Same second.path := by rw [here']; rfl
    have both := reading.update_update recognized recognized' plain plain' owned
    have alone := reading.update recognized' plain' owned
    exact ⟨by rw [both.1, alone.1, text],
      by rw [both.2, alone.2, text, Tree.replaced_replaced same]⟩
  case commute =>
    intro first second here recognized' plain' different text text' rest own other
    subst here
    have different' : ¬ first.path.Same second.path := fun same => different same.symm
    have one := reading.update_update recognized recognized' plain plain' owned
    have two := reading.update_update recognized' recognized plain' plain owned
    constructor
    · rw [one.2, text, Tree.replaced_replaced_of_not_same different']
      simp [rest, kept, own, other, Bool.and_comm]
    · rw [two.2, text', Tree.replaced_replaced_of_not_same different]
      simp [rest, kept, own, other]
  case unknown => simp [reconcileSource, reconcileFile, unknown]

theorem reconcile_replaces_saved_file :
    let path := Path.ofString "/ws/a.pl"
    let source := ":- begin_tests(new).\ntest(y).\ntest(y).\n"
    let beside :=
      (Document.scan (.ofString "/ws/b.pl") ":- begin_tests(b).\ntest(x).\n").insertInto {}
    let before := (Document.scan path ":- begin_tests(old).\ntest(y).\n").insertInto beside.tree
    let world : Rehearsal :=
      { site := { fs := {}, here := [] }, controller := { roots := [], settings := {} },
        memory := some [(path, source)] }
    let saved := (reconcileFile {} path).exec Rehearsal.quietHost ({ tree := before.tree }, world)
    before.tree.Built ∧ path.Plain ∧ ({} : DiscoverySettings).recognizes path ∧
      world.readDocument path = .ok source ∧
      saved.1 = .ok (some { path, suites := 1, tests := 2, warnings := [] }) ∧
      saved.2.1.tree = ⟨beside.tree.suites ++ (Document.fresh path source).tree.suites⟩ := by
  intro path source beside before world saved
  have plain : path.Plain := by decide
  have recognized : ({} : DiscoverySettings).recognizes path := by decide
  have read : world.readDocument path = .ok source := by decide
  have built : before.tree.Built := .discovered _ (.discovered _ .empty (by decide)) plain
  have replaced := reconcile_replaces Rehearsal.quietHost_reading {} path
    ({ tree := before.tree }, world) built
  obtain ⟨-, -, answer⟩ := (replaced.1 recognized plain).1 source
  obtain ⟨found, tree⟩ := answer read
  exact ⟨built, plain, recognized, read, found.trans (by decide), tree.trans (by decide)⟩

end TestExplorer
