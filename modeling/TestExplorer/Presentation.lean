import TestExplorer.Json
import TestExplorer.Run.Report
import TestExplorer.Tree.Node

set_option autoImplicit false

namespace TestExplorer

def NodeKind.label : NodeKind → String
  | suite => "suite"
  | test => "test"

mutual

-- Children are left out where there are none.
def Node.json (n : Node) : Json :=
  match n with
  | ⟨id, label, kind, path, line, canResolveChildren, children⟩ =>
    let shown : List (String × Json) :=
      match Node.jsonList children with
      | [] => []
      | nodes => [("children", .array nodes)]
    .object ([
      ("id", .string id), ("label", .string label), ("kind", .string kind.label),
      ("path", .string path.display), ("line", .nat line),
      ("canResolveChildren", .bool canResolveChildren)] ++ shown)

def Node.jsonList : List Node → List Json
  | [] => []
  | n :: rest => n.json :: Node.jsonList rest

end

mutual

-- Only text can stand in JSON, so a path that is none cannot be written there.
def Node.isWritable (n : Node) : Bool :=
  match n with
  | ⟨_, _, _, path, _, _, children⟩ => path.text?.isSome && Node.allWritable children

def Node.allWritable : List Node → Bool
  | [] => true
  | n :: rest => n.isWritable && Node.allWritable rest

end

def pathNotText : String :=
  "path contains invalid UTF-8 characters"

def Node.jsonOf? (nodes : List Node) : Except String Json :=
  if Node.allWritable nodes then .ok (.array (Node.jsonList nodes)) else .error pathNotText

def Outcome.jsonMembers : Outcome → List (String × Json)
  | passed => [("status", .string "passed")]
  | failed message => [("status", .string "failed"), ("message", .string message)]

def TestResult.json (r : TestResult) : Json :=
  .object ([("id", .string r.id.text), ("suite", .string r.suite), ("name", .string r.name)] ++
    r.outcome.jsonMembers)

def Report.json (r : Report) : Json :=
  .object [
    ("passed", .nat r.passed), ("failed", .nat r.failed),
    ("failures", .array (r.failures.map .string)),
    ("results", .array (r.results.map TestResult.json)),
    ("cancelled", .bool r.cancelled), ("notRun", .nat r.notRun)]

end TestExplorer
