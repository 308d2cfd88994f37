import TestExplorer.Run.Plan

set_option autoImplicit false

namespace TestExplorer

inductive SelectionError where
  | noSuite (name : String)
  | notASelector (text : String)
  | noTest (selector : String)
  deriving DecidableEq

def SelectionError.message : SelectionError → String
  | noSuite name => s!"Error: no suite named '{name}'"
  | notASelector text => s!"Error: --test expects SUITE:TEST, got '{text}'"
  | noTest selector => s!"Error: no test named '{selector}'"

namespace Tree

def suitesNamed (t : Tree) (name : String) : List Suite :=
  t.suites.filter (·.name = name)

def splitSelector? (selector : String) : Option (String × String) :=
  (Text.cut? [':'] selector.toList).map fun (suite, test) =>
    (String.ofList suite, String.ofList test)

def selectSuite (t : Tree) (name : String) : Except SelectionError (List String) :=
  match (t.suitesNamed name).map (·.id.text) with
  | [] => .error (.noSuite name)
  | ids => .ok ids

def selectTest (t : Tree) (selector : String) : Except SelectionError (List String) :=
  match splitSelector? selector with
  | none => .error (.notASelector selector)
  | some (suite, test) =>
    let tests := (t.suitesNamed suite).flatMap fun s => s.tests.filter (·.name = test)
    match tests.map (·.id.text) with
    | [] => .error (.noTest selector)
    | ids => .ok ids

def selectEach (choose : String → Except SelectionError (List String)) :
    List String → Except SelectionError (List String)
  | [] => .ok []
  | name :: rest => do
    let ids ← choose name
    let more ← selectEach choose rest
    pure (ids ++ more)

def select (t : Tree) (suites tests : List String) : Except SelectionError Scope :=
  if suites.isEmpty && tests.isEmpty then .ok .all
  else do
    let ids ← selectEach t.selectSuite suites
    let more ← selectEach t.selectTest tests
    pure (.many (ids ++ more))

end Tree

end TestExplorer
