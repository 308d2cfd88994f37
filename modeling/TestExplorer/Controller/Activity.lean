import TestExplorer.Run.Report
import TestExplorer.Tree.Insertion

/-!
Activities: what a request does, step by step. A step either touches the state that requests share,
and is then one indivisible change of it, or asks the host: to list and read files, to launch the
interpreter, to pass on progress. Between two steps of one activity another may take its own, so
every place where requests can interleave is a step here.
-/

set_option autoImplicit false

namespace TestExplorer

inductive Lock where
  | discovery
  | tree
  | runs
  deriving DecidableEq

abbrev Flag := Nat

/-- The state that the requests of one controller share. -/
structure Engine where
  tree : Tree := {}
  discovered : Bool := false
  -- Buffers edited before the first discovery, one to a document.
  buffers : List (Path × String) := []
  disposed : Bool := false
  active : Option Flag := none
  raised : List Flag := []

inductive StateAction where
  | acquire (lock : Lock)
  | release (lock : Lock)
  | isDisposed
  | markDisposed
  | isDiscovered
  | markDiscovered
  | keepBuffer (path : Path) (text : String)
  | dropBuffer (path : Path)
  | takeBuffers
  | readTree
  | clearTree
  | evict (path : Path)
  | insert (document : Document)
  | setActive (flag : Option Flag)
  | cancelActive
  | isRaised (flag : Flag)
  | raise (flag : Flag)

abbrev StateAction.Answer : StateAction → Type
  | isDisposed => Bool
  | markDisposed => Bool
  | isDiscovered => Bool
  | takeBuffers => List (Path × String)
  | readTree => Tree
  | insert _ => Found × List Notice
  | cancelActive => Bool
  | isRaised _ => Bool
  | _ => Unit

inductive HostAction where
  | enumerate (root : Path)
  | read (path : Path)
  | launch (invocation : Invocation)
  | notify (event : RunEvent)
  | note (notices : List Notice)

abbrev HostAction.Answer : HostAction → Type
  | enumerate _ => Except EngineError (List Path)
  | read _ => Except IoError String
  | launch _ => LaunchResult
  | notify _ => Unit
  | note _ => Unit

namespace Engine

def isRaised (e : Engine) (flag : Flag) : Bool :=
  e.raised.contains flag

def raise (e : Engine) (flag : Flag) : Engine :=
  { e with raised := flag :: e.raised }

def withoutBuffer (path : Path) (buffers : List (Path × String)) : List (Path × String) :=
  buffers.filter fun (known, _) => ¬ known.Same path

-- The buffers with the text of `path` put in place of an earlier one, under the path's first
-- spelling.
def withBuffer (path : Path) (text : String) : List (Path × String) → List (Path × String)
  | [] => [(path, text)]
  | (known, old) :: rest =>
    if known.Same path then (known, text) :: rest else (known, old) :: withBuffer path text rest

def perform (e : Engine) : (a : StateAction) → a.Answer × Engine
  | .acquire _ => ((), e)
  | .release _ => ((), e)
  | .isDisposed => (e.disposed, e)
  | .markDisposed => (e.disposed, { e with disposed := true })
  | .isDiscovered => (e.discovered, e)
  | .markDiscovered => ((), { e with discovered := true })
  | .keepBuffer path text => ((), { e with buffers := withBuffer path text e.buffers })
  | .dropBuffer path => ((), { e with buffers := withoutBuffer path e.buffers })
  | .takeBuffers => (e.buffers, { e with buffers := [] })
  | .readTree => (e.tree, e)
  | .clearTree => ((), { e with tree := {} })
  | .evict path => ((), { e with tree := e.tree.removeDocument path })
  | .insert document =>
    let i := document.insertInto e.tree
    ((i.found, i.notices), { e with tree := i.tree })
  | .setActive flag => ((), { e with active := flag })
  | .cancelActive =>
    match e.active with
    | some flag => (true, e.raise flag)
    | none => (false, e)
  | .isRaised flag => (e.isRaised flag, e)
  | .raise flag => ((), e.raise flag)

end Engine

inductive Activity (α : Type) where
  | done (a : α)
  | state (action : StateAction) (next : action.Answer → Activity α)
  | host (action : HostAction) (next : action.Answer → Activity α)

namespace Activity

variable {α β : Type}

def bind : Activity α → (α → Activity β) → Activity β
  | done a, f => f a
  | state action next, f => state action fun answer => (next answer).bind f
  | host action next, f => host action fun answer => (next answer).bind f

instance : Monad Activity where
  pure := done
  bind := bind

theorem bind_done (x : Activity α) : x.bind done = x := by
  induction x with
  | done a => rfl
  | state action next ih => simp [bind, ih]
  | host action next ih => simp [bind, ih]

theorem bind_assoc {γ : Type} (x : Activity α) (f : α → Activity β) (g : β → Activity γ) :
    (x.bind f).bind g = x.bind fun a => (f a).bind g := by
  induction x with
  | done a => rfl
  | state action next ih => simp [bind, ih]
  | host action next ih => simp [bind, ih]

instance : LawfulMonad Activity :=
  LawfulMonad.mk' Activity bind_done (fun _ _ => rfl) bind_assoc

/-- How a host with a world `σ` answers. It may raise flags and otherwise act on the shared state
as other requests do. -/
abbrev Host (σ : Type) :=
  (action : HostAction) → Engine × σ → action.Answer × (Engine × σ)

def exec {σ : Type} (h : Host σ) : Activity α → Engine × σ → α × (Engine × σ)
  | done a, s => (a, s)
  | state action next, (e, w) =>
    let (answer, e) := e.perform action
    exec h (next answer) (e, w)
  | host action next, s =>
    let (answer, s) := h action s
    exec h (next answer) s

def execUntil {σ : Type} (h : Host σ) (lock : Lock) :
    Activity α → Engine × σ → Activity α × (Engine × σ)
  | done a, s => (done a, s)
  | state action next, (e, w) =>
    match action, next with
    | .acquire l, next =>
      if l = lock then (state (.acquire l) next, (e, w)) else execUntil h lock (next ()) (e, w)
    | action, next =>
      let (answer, e) := e.perform action
      execUntil h lock (next answer) (e, w)
  | host action next, s =>
    let (answer, s) := h action s
    execUntil h lock (next answer) s

end Activity

def stateStep (action : StateAction) : Activity action.Answer :=
  .state action .done

def hostStep (action : HostAction) : Activity action.Answer :=
  .host action .done

def holding {α : Type} (lock : Lock) (body : Activity α) : Activity α := do
  stateStep (.acquire lock)
  let answer ← body
  stateStep (.release lock)
  pure answer

def logged (notices : List Notice) : Activity Unit :=
  hostStep (.note notices)

end TestExplorer
