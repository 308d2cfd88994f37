import TestExplorer.Proofs.Address
import TestExplorer.Proofs.Server.Conversation
import TestExplorer.Proofs.Server.Shown
import TestExplorer.Server.Service

set_option autoImplicit false

namespace TestExplorer.Server

namespace Conversation

section

variable {U : Type} [Addresses U] [Walker]

variable {x : Conversation} {w : Workspace} {p : Path}

/-- Every spelling of `p` that discovery lists or a message names is read as `p` is. -/
def ReadsAlike (x : Conversation) (w : Workspace) (p : Path) : Prop :=
  ∀ q, q.Same p → q ∈ (x.disk w).files w.controller.roots ∨ .changed q ∈ x.requests →
    (x.disk w).text q = (x.disk w).text p

/-- A reload came last that did not show what it left in the tree. -/
def overtaken (x : Conversation) (w : Workspace) (p : Path) : Bool :=
  Request.overtaken p ((x.disk w).text p).isSome x.requests.reverse

theorem ReadsAlike.listings (alike : x.ReadsAlike w p) :
    (x.disk w).ListsAlike w.controller.roots p :=
  fun q member same => alike q same (.inl member)

def view (x : Conversation) (w : Workspace) (p : Path) : View :=
  x.requests.foldl (View.step p w.controller (x.disk w)) {}

theorem view_follows (listed : p ∈ (x.disk w).files w.controller.roots)
    (alike : x.ReadsAlike w p) :
    (x.view w p).Follows p (((x.disk w).text p).map warningsIn) x.requests.reverse := by
  have read : (x.disk w).listedWarnings w.controller.roots p =
      ((x.disk w).text p).map warningsIn :=
    Disk.listedWarnings_eq listed alike.listings
  have named : ∀ q, .changed q ∈ x.requests → q.Same p →
      ((x.disk w).text q).map warningsIn = ((x.disk w).text p).map warningsIn :=
    fun q member same => congrArg (·.map warningsIn) (alike q same (.inr member))
  have follows := View.follows_empty.run x.requests named
  rw [List.append_nil] at follows
  rwa [view, View.step, read]

variable [Toml.Parser] [Processes]

/-- The scan of `p` from which the suites in the tree were made. -/
def standing (x : Conversation) (w : Workspace) (p : Path) : Option Document :=
  TreeWrite.standing p (x.writes w)

def lastShown (x : Conversation) (w : Workspace) (p : Path) : Option (List Diagnostic) :=
  Publication.lastShown p (x.published w)

theorem Opens.standing_scan (opens : x.Opens w) {document : Document}
    (stands : x.standing w p = some document) :
    document.path.Same p ∧ ∃ q source, document = Document.scan q source := by
  obtain ⟨member, here⟩ := TreeWrite.mem_of_standing p stands
  exact ⟨here, opens.leads.scans document member⟩

theorem Opens.suite_standing (opens : x.Opens w) (recognized : w.controller.recognizes p)
    (alike : x.ReadsAlike w p) {s : Suite} (member : s ∈ x.final.engine.tree.suites)
    (here : s.path.Same p) :
    ∃ document, x.standing w p = some document ∧ ∃ unit ∈ document.units, s.name = unit.name := by
  obtain ⟨-, disk, -, -⟩ := opens.start
  rw [opens.final_eq.2] at member
  obtain ⟨d, layered, unit, known, name⟩ := TreeWrite.unit_of_layers s member here
  have uniform : Document.Uniform (TreeWrite.layers p (x.writes w)) :=
    opens.leads.uniform recognized (disk ▸ alike.listings) (by simp [Document.Uniform])
  obtain ⟨top, first⟩ := Option.isSome_iff_exists.1
    (List.isSome_head?.2 (List.ne_nil_of_mem layered))
  refine ⟨top, (TreeWrite.head?_layers p _).symm.trans first, unit, ?_, name⟩
  rwa [uniform top (List.mem_of_head? first) d layered]

theorem shown_of_standing (lawful : Addresses.Lawful U) (opens : x.Opens w) (recognized : w.controller.recognizes p)
    (listed : p ∈ (x.disk w).files w.controller.roots) (alike : x.ReadsAlike w p)
    {shown : List Diagnostic} (published : x.lastShown w p = some shown) :
    (x.overtaken w p = false →
      shown = (((x.standing w p).map (·.warnings)).getD []).map Warning.diagnostic) ∧
    (x.overtaken w p = true → ∃ draft, Request.editOf p x.requests.reverse = some draft ∧
      match (x.disk w).text p with
      | some saved => shown = (warningsIn saved).map Warning.diagnostic ∧
          (x.standing w p).map (·.warnings) = some (warningsIn draft)
      | none => shown = (warningsIn draft).map Warning.diagnostic ∧ x.standing w p = none) := by
  have absolute : p.isAbsolute := Publication.isAbsolute_of_lastShown lawful published
  have follows := view_follows listed alike
  have inTree : (x.standing w p).map (·.warnings) = (x.view w p).inTree :=
    (opens.pictures recognized).inTree
  have seen : some shown = (x.view w p).shown.map (·.map Warning.diagnostic) :=
    published.symm.trans (Task.lastShown_flatMap lawful recognized absolute x.tasks)
  obtain ⟨warnings, last, rfl⟩ := Option.map_eq_some_iff.1 seen.symm
  constructor
  · intro current
    have kept : Request.overtaken p (((x.disk w).text p).map warningsIn).isSome
        x.requests.reverse = false := by rwa [Option.isSome_map]
    rw [inTree, follows.agrees kept warnings last]
  · intro late
    have late' : Request.overtaken p (((x.disk w).text p).map warningsIn).isSome
        x.requests.reverse := by rwa [Option.isSome_map]
    obtain ⟨draft, edit, read, unread⟩ := follows.differs late'
    refine ⟨draft, edit, ?_⟩
    cases text : (x.disk w).text p with
    | some saved =>
      obtain ⟨shown, stands⟩ := read (warningsIn saved) (by rw [text]; rfl)
      obtain rfl := Option.some.inj (last.symm.trans shown)
      exact ⟨rfl, inTree.trans stands⟩
    | none =>
      obtain ⟨shown, gone⟩ := unread (by rw [text]; rfl)
      obtain rfl := Option.some.inj (last.symm.trans shown)
      exact ⟨rfl, Option.map_eq_none_iff.1 (inTree.trans gone)⟩

/-- What the server has sent are its publications, and the tree is what its writes make of it. A
recognized document that discovery lists has the suites of the scan that stands, and the diagnostics
that were sent last are those of this scan, unless a reload has overtaken an edit. Then one of the two
is the edited text, and the other is what the reload has read. -/
theorem diagnostics_follow_tree (lawful : Addresses.Lawful U) (opens : x.Opens w) :
    x.final.desk.relay.sent = (x.published w).map Publication.notification ∧
    x.final.engine.tree = (x.writes w).foldl TreeWrite.apply {} ∧
    ∀ p, w.controller.recognizes p → p ∈ (x.disk w).files w.controller.roots → x.ReadsAlike w p →
      (∀ document, x.standing w p = some document →
        document.path.Same p ∧ ∃ q source, document = Document.scan q source) ∧
      (∀ s ∈ x.final.engine.tree.suites, s.path.Same p →
        ∃ document, x.standing w p = some document ∧ ∃ unit ∈ document.units, s.name = unit.name) ∧
      ∀ shown, x.lastShown w p = some shown →
        (x.overtaken w p = false →
          shown = (((x.standing w p).map (·.warnings)).getD []).map Warning.diagnostic) ∧
        (x.overtaken w p = true → ∃ draft, Request.editOf p x.requests.reverse = some draft ∧
          match (x.disk w).text p with
          | some saved => shown = (warningsIn saved).map Warning.diagnostic ∧
              (x.standing w p).map (·.warnings) = some (warningsIn draft)
          | none => shown = (warningsIn draft).map Warning.diagnostic ∧
              x.standing w p = none) := by
  obtain ⟨sent, tree⟩ := opens.final_eq
  refine ⟨sent, tree, fun p recognized listed alike => ⟨?scans, ?suites, ?shown⟩⟩
  case scans => exact fun _ stands => opens.standing_scan stands
  case suites => exact fun s member here => opens.suite_standing recognized alike member here
  case shown => exact fun _ published => shown_of_standing lawful opens recognized listed alike published

end

/-! ### A document that is saved without a fault and edited with one -/

def aboutOneDocument (messages : List Message) : Conversation where
  site := FileSystem.layout (.ofString "/ws")
    [(.ofString "a.pl", .file (.bytes (Text.toBytes ":- begin_tests(saved).\ntest(x).\n")))]
  first :=
    { method := "initialize"
      params := some (.object [("capabilities", .object []), ("rootUri", .string "file:///ws")])
      isRequest := true }
  messages

def edit : Message where
  method := "textDocument/didOpen"
  params := some (.object [("textDocument", .object [("uri", .string "file:///ws/a.pl"),
    ("languageId", .string "prolog"), ("version", .number 1),
    ("text", .string ":- begin_tests(draft).\ntest().\n")])])

def reload : Message where
  method := "prologtest/reload"
  isRequest := true

def fault : Diagnostic where
  line := 1
  endColumn := 7
  message := "\x60test\x60 marker has an empty name; it is ignored"

theorem diagnostics_follow_tree_edit_after_reload :
    let x := aboutOneDocument [reload, edit]
    let p := Path.ofString "/ws/a.pl"
    ∃ w, x.Opens w ∧ w.controller.recognizes p ∧ p ∈ (x.disk w).files w.controller.roots ∧
      x.ReadsAlike w p ∧ x.lastShown w p = some [fault] ∧ x.overtaken w p = false ∧
      [fault] = (((x.standing w p).map (·.warnings)).getD []).map Warning.diagnostic := by
  intro x p
  have opened : x.opened.workspace.isSome := by decide +kernel
  obtain ⟨w, workspace⟩ := Option.isSome_iff_exists.1 opened
  have opens : x.Opens w := ⟨workspace, by decide +kernel⟩
  have seen : ∀ w ∈ x.opened.workspace, w.controller.recognizes p ∧
      (x.disk w).files w.controller.roots = [p] ∧ x.lastShown w p = some [fault] ∧
      x.overtaken w p = false := by decide +kernel
  obtain ⟨recognized, files, shown, current⟩ := seen w workspace
  have unchanged : x.requests.all (fun | .changed _ => false | _ => true) := by decide +kernel
  have listed : p ∈ (x.disk w).files w.controller.roots := by simp [files]
  have alike : x.ReadsAlike w p := by
    rintro q - (member | named)
    · rw [files, List.mem_singleton] at member
      rw [member]
    · exact absurd (List.all_eq_true.1 unchanged _ named) Bool.false_ne_true
  obtain ⟨-, -, follow⟩ := diagnostics_follow_tree Uri.lawful opens
  exact ⟨w, opens, recognized, listed, alike, shown, current,
    ((follow p recognized listed alike).2.2 _ shown).1 current⟩

/-- The first reload shows what is saved of a document although its edited text stands in the tree. -/
theorem first_reload_hides_fault :
    let x := aboutOneDocument [edit, reload]
    let p := Path.ofString "/ws/a.pl"
    ∃ w, x.Opens w ∧ w.controller.recognizes p ∧ p ∈ (x.disk w).files w.controller.roots ∧
      x.final.engine.tree.suites.map (·.name) = ["draft"] ∧ x.lastShown w p = some [] ∧
      (x.standing w p).map (·.warnings.map Warning.diagnostic) = some [fault] := by
  intro x p
  have opened : x.opened.workspace.isSome := by decide +kernel
  obtain ⟨w, workspace⟩ := Option.isSome_iff_exists.1 opened
  have opens : x.Opens w := ⟨workspace, by decide +kernel⟩
  have seen : ∀ w ∈ x.opened.workspace, w.controller.recognizes p ∧
      p ∈ (x.disk w).files w.controller.roots ∧
      x.final.engine.tree.suites.map (·.name) = ["draft"] ∧ x.lastShown w p = some [] ∧
      (x.standing w p).map (·.warnings.map Warning.diagnostic) = some [fault] := by decide +kernel
  exact ⟨w, opens, seen w workspace⟩

end Conversation

end TestExplorer.Server
