set_option autoImplicit false

namespace TestExplorer.CommandLine

inductive Verb where
  | list
  | run
  deriving DecidableEq

structure Request where
  verb : Verb
  paths : List String := []
  config : Option String := none
  json : Bool := false
  suites : List String := []
  tests : List String := []
  keyword : Option String := none
  stopOnFailure : Bool := false
  verbose : Bool := false
  timeout : Option Nat := none
  interpreter : Option String := none
  deriving DecidableEq

end TestExplorer.CommandLine
