import TestExplorer.Notice

set_option autoImplicit false

namespace TestExplorer

inductive Scope where
  | all
  | suite (id : SuiteId)
  | test (id : TestId)
  | many (ids : List String)
  deriving DecidableEq

structure RunOptions where
  keyword : Option String := none
  stopOnFailure : Bool := false
  deriving DecidableEq

structure WorkItem where
  id : TestId
  suite : String
  test : String
  path : Path
  deriving DecidableEq

structure Invocation where
  path : Path
  goal : String
  deriving DecidableEq

def Invocation.forTest (path : Path) (suite test : String) : Invocation :=
  { path, goal := s!"run_tests({suite}:{test}),halt" }

namespace WorkItem

def ofTest (s : Suite) (t : Test) : WorkItem :=
  { id := t.id, suite := s.name, test := t.name, path := s.path }

def label (item : WorkItem) : String :=
  item.suite ++ ":" ++ item.test

def invocation (item : WorkItem) : Invocation :=
  .forTest item.path item.suite item.test

end WorkItem

namespace Suite

def items (s : Suite) : List WorkItem :=
  s.tests.map (WorkItem.ofTest s)

end Suite

namespace Tree

def itemsOf (t : Tree) (id : String) : Option (List WorkItem) :=
  match t.find? id with
  | some (.suite s) => some s.items
  | some (.test found owner) => some [.ofTest owner found]
  | none => none

def keepFirst (seen : List TestId) : List WorkItem → List WorkItem
  | [] => []
  | item :: rest =>
    if item.id ∈ seen then keepFirst seen rest
    else item :: keepFirst (item.id :: seen) rest

def expand (t : Tree) : Scope → List WorkItem
  | .all => t.suites.flatMap Suite.items
  | .suite id => ((t.suite? id).map Suite.items).getD []
  | .test id => ((t.test? id).map fun (found, owner) => [.ofTest owner found]).getD []
  | .many ids => keepFirst [] (ids.flatMap fun id => (t.itemsOf id).getD [])

def unknownIn (t : Tree) : Scope → List Notice
  | .all => []
  | .suite id => if (t.suite? id).isSome then [] else [.unknownSuite id]
  | .test id => if (t.test? id).isSome then [] else [.unknownTest id]
  | .many ids => (ids.filter fun id => (t.find? id).isNone).map .unknownItem

def plan (t : Tree) (scope : Scope) (options : RunOptions) : List WorkItem :=
  match options.keyword with
  | none => t.expand scope
  | some keyword =>
    (t.expand scope).filter fun item => Text.occurs keyword.toList item.label.toList

end Tree

end TestExplorer
