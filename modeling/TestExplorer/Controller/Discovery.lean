import TestExplorer.Config
import TestExplorer.Controller.Activity

set_option autoImplicit false

namespace TestExplorer

structure Summary where
  files : List Found := []
  errors : List EngineError := []
  deriving DecidableEq

namespace Summary

def suiteCount (s : Summary) : Nat :=
  (s.files.map (·.suites)).foldr (· + ·) 0

def testCount (s : Summary) : Nat :=
  (s.files.map (·.tests)).foldr (· + ·) 0

def warnings (s : Summary) : List (Path × Warning) :=
  s.files.flatMap fun f => f.warnings.map (f.path, ·)

def add (s : Summary) : Except EngineError Found → Summary
  | .ok found => { s with files := s.files ++ [found] }
  | .error error => { s with errors := s.errors ++ [error] }

end Summary

def insertDocument (document : Document) : Activity Found := do
  let (found, notices) ← stateStep (.insert document)
  logged notices
  pure found

def scanFile (path : Path) : Activity (Except EngineError Document) := do
  match ← hostStep (.read path) with
  | .ok source => pure (.ok (Document.scan path source))
  | .error cause => pure (.error (.read path cause))

-- A file that cannot be read leaves the tree as it is.
def discoverInFile (path : Path) : Activity (Except EngineError Found) := do
  match ← scanFile path with
  | .ok document => return .ok (← holding .tree (insertDocument document))
  | .error error =>
    logged [.failed error]
    pure (.error error)

def discoverSource (path : Path) (source : String) : Activity Found :=
  holding .tree (insertDocument (Document.scan path source))

def discoverFiles : List Path → Summary → Activity Summary
  | [], summary => pure summary
  | path :: rest, summary => do
    discoverFiles rest (summary.add (← discoverInFile path))

def discoverRoots : List Path → Summary → Activity Summary
  | [], summary => pure summary
  | root :: rest, summary => do
    match ← hostStep (.enumerate root) with
    | .ok files => discoverRoots rest (← discoverFiles files summary)
    | .error error =>
      logged [.failed error]
      discoverRoots rest (summary.add (.error error))

def discoverAll (roots : List Path) : Activity Summary :=
  discoverRoots roots {}

-- The document at `path` from the disk in place of what the tree holds of it. When it cannot be
-- read any more, nothing takes the place.
def reconcileFile (settings : DiscoverySettings) (path : Path) :
    Activity (Except EngineError (Option Found)) :=
  if settings.recognizes path then
    holding .tree do
      stateStep (.evict path)
      match ← scanFile path with
      | .ok document => return .ok (some (← insertDocument document))
      | .error error =>
        logged [.failed error]
        pure (.error error)
  else pure (.ok none)

def reconcileSource (settings : DiscoverySettings) (path : Path) (source : String) :
    Activity (Option Found) :=
  if settings.recognizes path then
    holding .tree do
      stateStep (.evict path)
      return some (← insertDocument (Document.scan path source))
  else pure none

end TestExplorer
