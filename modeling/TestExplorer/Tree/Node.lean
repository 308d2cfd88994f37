import TestExplorer.Tree.Basic

set_option autoImplicit false

namespace TestExplorer

inductive NodeKind where
  | suite
  | test
  deriving DecidableEq

structure Node where
  id : String
  label : String
  kind : NodeKind
  path : Path
  line : Nat
  canResolveChildren : Bool
  children : List Node

def Node.ofTest (t : Test) : Node :=
  { id := t.id.text, label := t.name, kind := .test, path := t.path, line := t.line
    canResolveChildren := false, children := [] }

-- A suite can be resolved also when it has no tests.
def Node.ofSuite (s : Suite) : Node :=
  { id := s.id.text, label := s.name, kind := .suite, path := s.path, line := s.line
    canResolveChildren := true, children := s.tests.map Node.ofTest }

namespace Tree

def nodes (t : Tree) : List Node :=
  t.suites.map Node.ofSuite

def childrenOf (t : Tree) (id : String) : List Node :=
  match t.find? id with
  | some (.suite s) => s.tests.map Node.ofTest
  | some (.test _ _) => []
  | none => []

end Tree

end TestExplorer
