import TestExplorer.Document
import TestExplorer.Text.Number

/-!
The tree of tests: suites in the order in which they were added, each with its tests. Suites and
tests are keyed by identifiers made of the document's path and the name; a line is no part of them,
so a test keeps its identifier when the text above it grows.
-/

set_option autoImplicit false

namespace TestExplorer

structure SuiteId where
  text : String
  deriving DecidableEq, Inhabited

structure TestId where
  text : String
  deriving DecidableEq, Inhabited

def SuiteId.of (path : Path) (name : String) : SuiteId :=
  ⟨"suite:" ++ path.display ++ ":" ++ name⟩

-- The `ordinal`-th test of a name in a document. The first carries no ordinal.
def TestId.of (path : Path) (name : String) (ordinal : Nat := 1) : TestId :=
  if ordinal ≤ 1 then ⟨"test:" ++ path.display ++ ":" ++ name⟩
  else ⟨"test:" ++ path.display ++ ":" ++ name ++ "#" ++ Text.decimal ordinal⟩

structure Test where
  id : TestId
  name : String
  path : Path
  line : Nat
  suite : SuiteId
  deriving DecidableEq

structure Suite where
  id : SuiteId
  name : String
  path : Path
  line : Nat
  tests : List Test
  deriving DecidableEq

structure Tree where
  suites : List Suite := []
  deriving DecidableEq

inductive TreeError where
  | duplicateKey (id : String)
  | unknownSuite (id : String)
  deriving DecidableEq

def TreeError.message : TreeError → String
  | duplicateKey id => s!"duplicate identifier \x60{id}\x60"
  | unknownSuite id => s!"unknown suite \x60{id}\x60"

def Suite.test? (s : Suite) (id : TestId) : Option Test :=
  s.tests.find? (·.id = id)

namespace Tree

def suiteCount (t : Tree) : Nat :=
  t.suites.length

def testCount (t : Tree) : Nat :=
  (t.suites.map (·.tests.length)).foldr (· + ·) 0

def suite? (t : Tree) (id : SuiteId) : Option Suite :=
  t.suites.find? (·.id = id)

def test? (t : Tree) (id : TestId) : Option (Test × Suite) :=
  t.suites.findSome? fun s => (s.test? id).map (·, s)

def hasTest (t : Tree) (id : TestId) : Bool :=
  (t.test? id).isSome

def appendTest (owner : SuiteId) (test : Test) : List Suite → Option (List Suite)
  | [] => none
  | s :: rest =>
    if s.id = owner then some ({ s with tests := s.tests ++ [test] } :: rest)
    else (appendTest owner test rest).map (s :: ·)

def suitesIn (t : Tree) (path : Path) : List Suite :=
  t.suites.filter fun s => s.path.Same path

def removeDocument (t : Tree) (path : Path) : Tree :=
  ⟨t.suites.filter fun s => ¬ s.path.Same path⟩

def testsAt (t : Tree) (path : Path) (line : Nat) : List Test :=
  (t.suitesIn path).flatMap fun s => s.tests.filter (·.line = line)

end Tree

/-- What changes a tree. What has been changed when an error comes stays changed. -/
abbrev TreeEdit := ExceptT TreeError (StateM Tree)

namespace TreeEdit

def addSuite (name : String) (path : Path) (line : Nat) : TreeEdit Suite := do
  let id := SuiteId.of path name
  if ((← get).suite? id).isSome then
    throw (.duplicateKey id.text)
  let suite : Suite := { id, name, path, line, tests := [] }
  modify fun t => { t with suites := t.suites ++ [suite] }
  return suite

def addTestWithId (suite : SuiteId) (id : TestId) (name : String) (path : Path) (line : Nat) :
    TreeEdit Test := do
  if (← get).hasTest id then
    throw (.duplicateKey id.text)
  let test : Test := { id, name, path, line, suite }
  match Tree.appendTest suite test (← get).suites with
  | some suites =>
    set (⟨suites⟩ : Tree)
    return test
  | none => throw (.unknownSuite suite.text)

def addTest (suite : SuiteId) (name : String) (path : Path) (line : Nat) : TreeEdit Test :=
  addTestWithId suite (TestId.of path name) name path line

def removeDocument (path : Path) : TreeEdit Nat := do
  let before := (← get).suiteCount
  modify (·.removeDocument path)
  return before - (← get).suiteCount

def clear : TreeEdit Unit :=
  set ({} : Tree)

-- The answer with the new tree, if there is no error.
def on {α : Type} (edit : TreeEdit α) (t : Tree) : Except TreeError (Tree × α) :=
  match edit.run.run t with
  | (.ok a, t) => .ok (t, a)
  | (.error error, _) => .error error

end TreeEdit

namespace Tree

def addSuite (t : Tree) (name : String) (path : Path) (line : Nat) :
    Except TreeError (Tree × Suite) :=
  (TreeEdit.addSuite name path line).on t

def addTestWithId (t : Tree) (suite : SuiteId) (id : TestId) (name : String) (path : Path)
    (line : Nat) : Except TreeError (Tree × Test) :=
  (TreeEdit.addTestWithId suite id name path line).on t

def addTest (t : Tree) (suite : SuiteId) (name : String) (path : Path) (line : Nat) :
    Except TreeError (Tree × Test) :=
  (TreeEdit.addTest suite name path line).on t

end Tree

inductive Entry where
  | suite (s : Suite)
  | test (t : Test) (owner : Suite)

-- Identifiers of suites and of tests open differently, so a text stands for one kind only.
def Tree.find? (t : Tree) (id : String) : Option Entry :=
  if "suite:".toList.isPrefixOf id.toList then
    (t.suites.find? (·.id.text = id)).map .suite
  else if "test:".toList.isPrefixOf id.toList then
    t.suites.findSome? fun s => (s.tests.find? (·.id.text = id)).map fun found => .test found s
  else none

end TestExplorer
