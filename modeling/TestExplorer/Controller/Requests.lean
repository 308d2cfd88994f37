import TestExplorer.Controller.Discovery
import TestExplorer.Controller.Running
import TestExplorer.Tree.Node

set_option autoImplicit false

namespace TestExplorer

structure Controller where
  roots : List Path
  settings : DiscoverySettings

namespace Controller

variable (c : Controller)

def recognizes (path : Path) : Bool :=
  c.settings.recognizes path

def live {α : Type} (body : Activity (Except EngineError α)) : Activity (Except EngineError α) := do
  if ← stateStep .isDisposed then pure (.error .disposed) else body

def applyBuffers : List (Path × String) → Activity Unit
  | [] => pure ()
  | (path, source) :: rest => do
    discard (reconcileSource c.settings path source)
    applyBuffers rest

def discoverWorkspace : Activity Summary := do
  holding .tree (stateStep .clearTree)
  let summary ← discoverAll c.roots
  let buffers ← stateStep .takeBuffers
  c.applyBuffers buffers
  pure summary

def ensureDiscovered : Activity Unit :=
  holding .discovery do
    if ← stateStep .isDiscovered then pure ()
    else
      discard c.discoverWorkspace
      stateStep .markDiscovered

def resolve (id : Option String) : Activity (Except EngineError (List Node)) :=
  live do
    c.ensureDiscovered
    let tree ← holding .tree (stateStep .readTree)
    match id with
    | none => pure (.ok tree.nodes)
    | some id => pure (.ok (tree.childrenOf id))

def reload : Activity (Except EngineError Summary) :=
  live (holding .discovery do
    let summary ← c.discoverWorkspace
    stateStep .markDiscovered
    pure (.ok summary))

def run (scope : Scope) (options : RunOptions) (flag : Flag) :
    Activity (Except EngineError Report) :=
  live do
    c.ensureDiscovered
    holding .runs do
      stateStep (.setActive (some flag))
      let report ← runScope scope options flag
      stateStep (.setActive none)
      pure (.ok report)

def cancel : Activity Bool :=
  stateStep .cancelActive

-- A document changed on the disk; what was edited before the first discovery is dropped.
def documentChanged (path : Path) : Activity (Except EngineError (Option Found)) :=
  live do
    holding .discovery do
      if ← stateStep .isDiscovered then pure () else stateStep (.dropBuffer path)
    reconcileFile c.settings path

-- A document was edited in memory; before the first discovery the buffer is kept for it.
def documentEdited (path : Path) (source : String) :
    Activity (Except EngineError (Option Found)) :=
  live do
    holding .discovery do
      if ← stateStep .isDiscovered then pure ()
      else if c.recognizes path then stateStep (.keepBuffer path source)
    return .ok (← reconcileSource c.settings path source)

def snapshot : Activity Tree :=
  holding .tree (stateStep .readTree)

def dispose : Activity Unit := do
  if ← stateStep .markDisposed then pure ()
  else
    discard (stateStep .cancelActive)
    holding .tree (stateStep .clearTree)

def isDisposed : Activity Bool :=
  stateStep .isDisposed

end Controller

end TestExplorer
