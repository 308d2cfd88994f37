import TestExplorer.Proofs.Requests
import TestExplorer.Proofs.Tree.Growth

set_option autoImplicit false

namespace TestExplorer

variable {σ : Type}

-- A question about the workspace with the host's answer.
inductive Inquiry where
  | listing (root : Path) (answer : Except EngineError (List Path))
  | reading (path : Path) (answer : Except IoError String)

namespace Activity

def Step.inquiry? (h : Host σ) : Step σ → Option Inquiry
  | .host (.enumerate root) s => some (.listing root (h (.enumerate root) s).1)
  | .host (.read path) s => some (.reading path (h (.read path) s).1)
  | _ => none

def inquiries (h : Host σ) (steps : List (Step σ)) : List Inquiry :=
  steps.filterMap (Step.inquiry? h)

@[simp] theorem inquiries_append (h : Host σ) (before after : List (Step σ)) :
    inquiries h (before ++ after) = inquiries h before ++ inquiries h after :=
  List.filterMap_append

-- While documents are listed, read and logged, nobody else is at the tree.
def Host.LeavesTree (h : Host σ) : Prop :=
  ∀ action s, action.isAboutDocuments → (h action s).2.1.tree = s.1.tree

end Activity

theorem Frontend.host_leavesTree [Walker] [Processes] (f : Frontend σ) : f.host.LeavesTree := by
  intro action s about
  cases action with
  | launch invocation => exact about.elim
  | notify event => exact about.elim
  | _ => rfl

theorem Rehearsal.quietHost_leavesTree [Walker] : quietHost.LeavesTree := by
  intro action s about
  cases action with
  | launch invocation => exact about.elim
  | notify event => exact about.elim
  | _ => rfl

/-! ## Documents in a row -/

namespace Tree

def insertAll (t : Tree) (documents : List Document) : Tree :=
  documents.foldl (fun t d => (d.insertInto t).tree) t

def foundIn : Tree → List Document → List Found
  | _, [] => []
  | t, d :: rest => (d.insertInto t).found :: foundIn (d.insertInto t).tree rest

theorem insertAll_append (t : Tree) (before after : List Document) :
    t.insertAll (before ++ after) = (t.insertAll before).insertAll after :=
  List.foldl_append

theorem foundIn_append (t : Tree) (before after : List Document) :
    t.foundIn (before ++ after) = t.foundIn before ++ (t.insertAll before).foundIn after := by
  induction before generalizing t with
  | nil => rfl
  | cons d before ih => simp [foundIn, insertAll, ih]

theorem remarks_foundIn (t : Tree) (documents : List Document) :
    (t.foundIn documents).map Found.remarks = documents.map Document.remarks := by
  induction documents generalizing t with
  | nil => rfl
  | cons d rest ih => simp [foundIn, ih, Document.remarks_insertInto]

theorem testCount_insertAll (t : Tree) (documents : List Document) :
    (t.insertAll documents).testCount =
      t.testCount + ((t.foundIn documents).map (·.tests)).foldr (· + ·) 0 := by
  induction documents generalizing t with
  | nil => rfl
  | cons d rest ih =>
    have takes := d.insertInto_takes t
    have later := ih (d.insertInto t).tree
    have found : (d.insertInto t).found.tests = d.testCount := by rw [takes.found]
    simp only [insertAll, foundIn, List.foldl_cons, List.map_cons, List.foldr_cons] at later ⊢
    rw [later, takes.testCount, found, Nat.add_assoc]

theorem suiteCount_insertAll (t : Tree) (documents : List Document) :
    (t.insertAll documents).suiteCount =
      t.suiteCount + ((t.foundIn documents).map (·.suites)).foldr (· + ·) 0 := by
  induction documents generalizing t with
  | nil => rfl
  | cons d rest ih =>
    have takes := d.insertInto_takes t
    have later := ih (d.insertInto t).tree
    simp only [insertAll, foundIn, List.foldl_cons, List.map_cons, List.foldr_cons] at later ⊢
    rw [later, takes.suiteCount, Nat.add_assoc]

end Tree

/-! ## Visits -/

structure Attempt where
  path : Path
  answer : Except IoError String

namespace Attempt

def inquiry (a : Attempt) : Inquiry :=
  .reading a.path a.answer

def document? (a : Attempt) : Option Document :=
  a.answer.toOption.map (Document.scan a.path)

def error? (a : Attempt) : Option EngineError :=
  match a.answer with
  | .ok _ => none
  | .error cause => some (.read a.path cause)

end Attempt

structure Visit where
  root : Path
  found : Except EngineError (List Attempt)

namespace Visit

def attempts (v : Visit) : List Attempt :=
  match v.found with
  | .ok attempts => attempts
  | .error _ => []

def inquiries (v : Visit) : List Inquiry :=
  .listing v.root (v.found.map fun attempts => attempts.map (·.path)) ::
    v.attempts.map Attempt.inquiry

def documents (v : Visit) : List Document :=
  v.attempts.filterMap Attempt.document?

def errors (v : Visit) : List EngineError :=
  match v.found with
  | .ok attempts => attempts.filterMap Attempt.error?
  | .error error => [error]

end Visit

namespace Activity

/-- The activity asks these questions. It adds the documents to the tree and to the summary, and the
errors to the summary. -/
structure Gathers (h : Host σ) (x : Activity Summary) (s : Engine × σ) (before : Summary)
    (asked : List Inquiry) (documents : List Document) (failures : List EngineError) : Prop where
  asked : inquiries h (x.steps h s) = asked
  files : (x.exec h s).1.files = before.files ++ s.1.tree.foundIn documents
  errors : (x.exec h s).1.errors = before.errors ++ failures
  tree : (x.exec h s).2.1.tree = s.1.tree.insertAll documents

variable {h : Host σ} {s : Engine × σ}

theorem Gathers.nothing (before : Summary) :
    (pure before : Activity Summary).Gathers h s before [] [] [] := by
  constructor <;> simp [inquiries, Tree.foundIn, Tree.insertAll]

theorem Gathers.andThen {x : Activity Summary} {y : Summary → Activity Summary} {before : Summary}
    {asked asked' : List Inquiry} {documents documents' : List Document}
    {failures failures' : List EngineError}
    (first : x.Gathers h s before asked documents failures)
    (second : (y (x.exec h s).1).Gathers h (x.exec h s).2 (x.exec h s).1 asked' documents'
      failures') :
    (x >>= y).Gathers h s before (asked ++ asked') (documents ++ documents')
      (failures ++ failures') := by
  constructor
  case asked => rw [steps_bind, inquiries_append, first.asked, second.asked]
  case files =>
    rw [exec_bind, second.files, first.files, first.tree, Tree.foundIn_append, List.append_assoc]
  case errors => rw [exec_bind, second.errors, first.errors, List.append_assoc]
  case tree => rw [exec_bind, second.tree, first.tree, Tree.insertAll_append]

theorem Gathers.listing {root : Path} {next : Except EngineError (List Path) → Activity Summary}
    {answer : Except EngineError (List Path)} {before : Summary} {asked : List Inquiry}
    {documents : List Document} {failures : List EngineError}
    (answered : (h (.enumerate root) s).1 = answer)
    (kept : (h (.enumerate root) s).2.1.tree = s.1.tree)
    (later : (next answer).Gathers h (h (.enumerate root) s).2 before asked documents failures) :
    (host (.enumerate root) next).Gathers h s before (.listing root answer :: asked) documents
      failures := by
  subst answered
  constructor
  case asked => exact congrArg _ later.asked
  case files => rw [exec_host, later.files, kept]
  case errors => exact later.errors
  case tree => rw [exec_host, later.tree, kept]

theorem Gathers.failure {error : EngineError} {next : Unit → Activity Summary} {before : Summary}
    {asked : List Inquiry} {documents : List Document} {failures : List EngineError}
    (kept : (h (.note [.failed error]) s).2.1.tree = s.1.tree)
    (later : (next ()).Gathers h (h (.note [.failed error]) s).2 (before.add (.error error)) asked
      documents failures) :
    (host (.note [.failed error]) next).Gathers h s before asked documents (error :: failures) := by
  constructor
  case asked => exact later.asked
  case files => rw [exec_host, later.files, kept]; rfl
  case errors => simp [later.errors, Summary.add]
  case tree => rw [exec_host, later.tree, kept]

end Activity

section

open Activity

variable {h : Activity.Host σ} (quiet : h.LeavesTree)

include quiet

theorem gathers_attempt (path : Path) (s : Engine × σ) (before : Summary) :
    let attempt : Attempt := ⟨path, (h (.read path) s).1⟩
    (before.add <$> discoverInFile path).Gathers h s before [attempt.inquiry]
      attempt.document?.toList attempt.error?.toList := by
  intro attempt
  have kept : (h (.read path) s).2.1.tree = s.1.tree := quiet (.read path) s trivial
  have noted (notices : List Notice) (s : Engine × σ) : (h (.note notices) s).2.1.tree = s.1.tree :=
    quiet (.note notices) s trivial
  cases answer : (h (.read path) s).1 with
  | ok source =>
    have document : attempt.document? = some (Document.scan path source) := by
      simp [attempt, Attempt.document?, answer, Except.toOption]
    have error : attempt.error? = none := by simp [attempt, Attempt.error?, answer]
    rw [document, error]
    constructor <;>
      simp [discoverInFile, scanFile, insertDocument, inquiries, Step.inquiry?, Engine.perform,
        Summary.add, Tree.foundIn, Tree.insertAll, Attempt.inquiry, attempt, answer, kept, noted]
  | error cause =>
    have document : attempt.document? = none := by
      simp [attempt, Attempt.document?, answer, Except.toOption]
    have error : attempt.error? = some (.read path cause) := by
      simp [attempt, Attempt.error?, answer]
    rw [document, error]
    constructor <;>
      simp [discoverInFile, scanFile, inquiries, Step.inquiry?, Summary.add, Tree.foundIn,
        Tree.insertAll, Attempt.inquiry, attempt, answer, kept, noted]

theorem discoverFiles_gathers (files : List Path) (s : Engine × σ) (before : Summary) :
    ∃ attempts : List Attempt, attempts.map (·.path) = files ∧
      (discoverFiles files before).Gathers h s before (attempts.map Attempt.inquiry)
        (attempts.filterMap Attempt.document?) (attempts.filterMap Attempt.error?) := by
  induction files generalizing s before with
  | nil => exact ⟨[], rfl, .nothing before⟩
  | cons path rest ih =>
    let attempt : Attempt := ⟨path, (h (.read path) s).1⟩
    have first := gathers_attempt quiet path s before
    obtain ⟨attempts, paths, later⟩ := ih _ _
    have whole := first.andThen later
    have steps : discoverFiles (path :: rest) before =
        (before.add <$> discoverInFile path) >>= discoverFiles rest := by
      rw [bind_map_left]
      rfl
    refine ⟨attempt :: attempts, by simp [attempt, paths], ?_⟩
    rw [steps, List.filterMap_eq_flatMap_toList, List.filterMap_eq_flatMap_toList]
    rw [List.filterMap_eq_flatMap_toList, List.filterMap_eq_flatMap_toList] at whole
    exact whole

theorem discoverRoots_gathers (roots : List Path) (s : Engine × σ) (before : Summary) :
    ∃ visits : List Visit, visits.map (·.root) = roots ∧
      (discoverRoots roots before).Gathers h s before (visits.flatMap Visit.inquiries)
        (visits.flatMap Visit.documents) (visits.flatMap Visit.errors) := by
  induction roots generalizing s before with
  | nil => exact ⟨[], rfl, .nothing before⟩
  | cons root rest ih =>
    let next : Except EngineError (List Path) → Activity Summary
      | .ok files => discoverFiles files before >>= discoverRoots rest
      | .error error => host (.note [.failed error]) fun _ =>
          discoverRoots rest (before.add (.error error))
    have steps : discoverRoots (root :: rest) before = host (.enumerate root) next := by
      unfold discoverRoots
      change host (.enumerate root) _ = _
      congr 1
      funext answer
      cases answer <;> rfl
    have kept := quiet (.enumerate root) s trivial
    let listed := (h (.enumerate root) s).2
    rw [steps]
    cases answer : (h (.enumerate root) s).1 with
    | ok files =>
      obtain ⟨attempts, paths, first⟩ := discoverFiles_gathers quiet files listed before
      obtain ⟨visits, visited, later⟩ := ih _ _
      have whole : (next (.ok files)).Gathers h listed before _ _ _ := first.andThen later
      refine ⟨⟨root, .ok attempts⟩ :: visits, by simp [visited], ?_⟩
      rw [← paths] at answer whole
      exact .listing answer kept whole
    | error error =>
      let noted := (h (.note [.failed error]) listed).2
      obtain ⟨visits, visited, later⟩ := ih noted (before.add (.error error))
      have unlogged := quiet (.note [.failed error]) listed trivial
      have whole : (next (.error error)).Gathers h listed before _ _ _ := .failure unlogged later
      exact ⟨⟨root, .error error⟩ :: visits, by simp [visited], .listing answer kept whole⟩

/-- A discovery goes on behind every failure. Every root is listed and every file of a listing is
read, in order. The documents that can be read enter the tree and give the summary's entries, the
failures give its errors, and its counts are those by which the tree has grown. -/
theorem discoverAll_summary (roots : List Path) (s : Engine × σ) :
    let summary := ((discoverAll roots).exec h s).1
    let tree := ((discoverAll roots).exec h s).2.1.tree
    ∃ visits : List Visit, visits.map (·.root) = roots ∧
      inquiries h ((discoverAll roots).steps h s) = visits.flatMap Visit.inquiries ∧
      summary.errors = visits.flatMap Visit.errors ∧
      summary.files.map Found.remarks = (visits.flatMap Visit.documents).map Document.remarks ∧
      summary.files = s.1.tree.foundIn (visits.flatMap Visit.documents) ∧
      tree = s.1.tree.insertAll (visits.flatMap Visit.documents) ∧
      tree.suiteCount = s.1.tree.suiteCount + summary.suiteCount ∧
      tree.testCount = s.1.tree.testCount + summary.testCount := by
  intro summary tree
  obtain ⟨visits, visited, gathered⟩ := discoverRoots_gathers quiet roots s {}
  have files : summary.files = s.1.tree.foundIn (visits.flatMap Visit.documents) := gathered.files
  have errors : summary.errors = visits.flatMap Visit.errors := gathered.errors
  refine ⟨visits, visited, gathered.asked, errors, ?_, files, gathered.tree, ?_, ?_⟩
  · rw [files, Tree.remarks_foundIn]
  · rw [Summary.suiteCount, files, ← Tree.suiteCount_insertAll, ← gathered.tree]
    rfl
  · rw [Summary.testCount, files, ← Tree.testCount_insertAll, ← gathered.tree]
    rfl

end

-- One root cannot be listed and the file of another cannot be read. The file of the first is read
-- once more behind them, when its unit is open already.
theorem discoverAll_summary_goes_on :
    let kept := Path.ofString "/ws/in/a.pl"
    let lost := Path.ofString "/ws/b.pl"
    let files := [kept, lost].map fun path => (path, Inode.file (.zeros 0))
    let world : Rehearsal :=
      { site := FileSystem.layout (.ofString "/ws") files
        controller := { roots := [], settings := {} }
        memory := some [(kept, ":- begin_tests(u).\ntest(x).\n:- end_tests(u).\n")] }
    let roots := ["/ws/in", "/nope", "/ws/b.pl", "/ws/in/a.pl"].map Path.ofString
    let after := (discoverAll roots).exec Rehearsal.quietHost ({}, world)
    let found : Found := { path := kept, suites := 1, tests := 1, warnings := [] }
    Rehearsal.quietHost.LeavesTree ∧
      after.1.files = [found, { found with suites := 0 }] ∧
      after.1.errors = [.enumeration (.ofString "/nope") "not a directory",
        .read lost Rehearsal.notInMemory] ∧
      after.2.1.tree.suiteCount = 1 ∧ after.2.1.tree.testCount = 2 := by
  intro kept lost files world roots after found
  have quiet : Rehearsal.quietHost.LeavesTree := Rehearsal.quietHost_leavesTree
  have read : after.1.files = [found, { found with suites := 0 }] := by decide +kernel
  have failed : after.1.errors = [.enumeration (.ofString "/nope") "not a directory",
      .read lost Rehearsal.notInMemory] := by
    decide +kernel
  obtain ⟨visits, visited, asked, errors, remarks, entries, tree, suites, tests⟩ :=
    discoverAll_summary quiet roots ({}, world)
  refine ⟨quiet, read, failed, suites.trans ?_, tests.trans ?_⟩
  · change Tree.suiteCount {} + after.1.suiteCount = 1
    rw [Summary.suiteCount, read]
    rfl
  · change Tree.testCount {} + after.1.testCount = 2
    rw [Summary.testCount, read]
    rfl

end TestExplorer
