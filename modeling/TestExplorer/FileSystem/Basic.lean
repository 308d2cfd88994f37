import TestExplorer.Failure
import TestExplorer.Path

set_option autoImplicit false

namespace TestExplorer

abbrev Name := List UInt8

inductive Content where
  | bytes (data : List UInt8)
  | zeros (size : Nat)

namespace Content

def size : Content → Nat
  | bytes data => data.length
  | zeros size => size

def data : Content → List UInt8
  | bytes data => data
  | zeros size => List.replicate size 0

end Content

inductive Inode where
  | file (content : Content)
  | link (target : Path)
  | dir (entries : List (Name × Inode))

namespace Inode

def isDir : Inode → Bool
  | dir _ => true
  | _ => false

def isFile : Inode → Bool
  | file _ => true
  | _ => false

def size : Inode → Nat
  | file content => content.size
  | _ => 0

def find? (name : Name) : List (Name × Inode) → Option Inode
  | [] => none
  | (known, node) :: rest => if known = name then some node else find? name rest

def withEntry (name : Name) (node : Inode) : List (Name × Inode) → List (Name × Inode)
  | [] => [(name, node)]
  | (known, old) :: rest =>
    if known = name then (name, node) :: rest else (known, old) :: withEntry name node rest

def withoutEntry (name : Name) (entries : List (Name × Inode)) : List (Name × Inode) :=
  entries.filter (·.1 ≠ name)

def get? : Inode → List Name → Option Inode
  | node, [] => some node
  | dir entries, name :: rest =>
    match find? name entries with
    | some node => node.get? rest
    | none => none
  | _, _ :: _ => none

def put : Inode → List Name → Inode → Inode
  | _, [], node => node
  | dir entries, name :: rest, node =>
    let old := (find? name entries).getD (dir [])
    dir (withEntry name (put old rest node) entries)
  | _, name :: rest, node => dir [(name, put (dir []) rest node)]

def erase : List Name → Inode → Inode
  | [], old => old
  | [name], dir entries => dir (withoutEntry name entries)
  | name :: rest, dir entries =>
    match find? name entries with
    | some node => dir (withEntry name (erase rest node) entries)
    | none => dir entries
  | _ :: _, old => old

end Inode

structure FileSystem where
  root : Inode := .dir []

structure Site where
  fs : FileSystem
  here : List Name

namespace FileSystem

def linkLimit : Nat := 40

def nameLimit : Nat := 255

def pathOf (place : List Name) : Path :=
  ⟨if place.isEmpty then [slash] else place.flatMap (slash :: ·)⟩

def start (here : List Name) (p : Path) : List Name × List Name :=
  match Path.segments p.bytes with
  | [] :: rest => ([], rest)
  | segments => (here, segments)

-- One resolution up to the next link in the way, which `again` takes from there.
def follow (fs : FileSystem) (final : Bool)
    (again : List Name → List Name → Except IoError (List Name)) :
    List Name → List Name → Except IoError (List Name)
  | here, [] => .ok here
  | here, segment :: rest =>
    match fs.root.get? here with
    | some (.dir entries) =>
      if Path.isIdle segment then follow fs final again here rest
      else if segment = [dot, dot] then follow fs final again here.dropLast rest
      else if nameLimit < segment.length then .error .nameTooLong
      else match Inode.find? segment entries with
        | none => .error .notFound
        | some (.link target) =>
          if rest.isEmpty && !final then .ok (here ++ [segment])
          else
            let (base, first) := start here target
            again base (first ++ rest)
        | some _ => follow fs final again (here ++ [segment]) rest
    | some _ => .error .notDirectory
    | none => .error .notFound

def resolveFrom (fs : FileSystem) (final : Bool) :
    Nat → List Name → List Name → Except IoError (List Name)
  | 0 => fun _ _ => .error .linkLoop
  | n + 1 => fs.follow final (resolveFrom fs final n)

-- The place that `p` names, seen from `here`. A link at its end is followed when `final`.
def resolve (fs : FileSystem) (here : List Name) (p : Path) (final : Bool := true) :
    Except IoError (List Name) :=
  if p.bytes.contains 0 then .error .badArgument
  else if p.bytes.isEmpty then .error .notFound
  else
    let (base, segments) := start here p
    fs.resolveFrom final (linkLimit + 1) base segments

def stat (fs : FileSystem) (here : List Name) (p : Path) : Except IoError Inode := do
  let place ← fs.resolve here p
  match fs.root.get? place with
  | some node => pure node
  | none => throw .notFound

def isDir (fs : FileSystem) (here : List Name) (p : Path) : Bool :=
  match fs.stat here p with
  | .ok node => node.isDir
  | .error _ => false

def isFile (fs : FileSystem) (here : List Name) (p : Path) : Bool :=
  match fs.stat here p with
  | .ok node => node.isFile
  | .error _ => false

def canonical (fs : FileSystem) (here : List Name) (p : Path) : Except IoError Path :=
  (fs.resolve here p).map pathOf

def read (fs : FileSystem) (here : List Name) (p : Path) : Except IoError (List UInt8) := do
  match ← fs.stat here p with
  | .file content => pure content.data
  | .dir _ => throw .isDirectory
  | .link _ => throw .linkLoop

def readText (fs : FileSystem) (here : List Name) (p : Path) : Except IoError String := do
  match Text.ofBytes? (← fs.read here p) with
  | some text => pure text
  | none => throw .notUtf8

def sourceLimit : Nat := 104857600

def readSource (fs : FileSystem) (here : List Name) (p : Path) : Except IoError String := do
  let node ← fs.stat here p
  let size := node.size
  if sourceLimit < size then throw (.tooLarge size sourceLimit)
  else fs.readText here p

def makeDirs (fs : FileSystem) (here : List Name) : List Name → FileSystem × List Name
  | [] => (fs, here)
  | segment :: rest =>
    if Path.isIdle segment then makeDirs fs here rest
    else if segment = [dot, dot] then makeDirs fs here.dropLast rest
    else match fs.resolve here ⟨segment⟩ with
      | .ok place => makeDirs fs place rest
      | .error _ =>
        let place := here ++ [segment]
        makeDirs ⟨fs.root.put place (.dir [])⟩ place rest

def write (fs : FileSystem) (here : List Name) (p : Path) (node : Inode) : FileSystem :=
  let (base, segments) := start here p
  let kept := Path.dropIdleEnd segments
  match kept.getLast? with
  | none => fs
  | some name =>
    let (fs, parent) := fs.makeDirs base kept.dropLast
    match node with
    | .dir _ => (fs.makeDirs parent [name]).1
    | .link target => ⟨fs.root.put (parent ++ [name]) (.link target)⟩
    | .file content =>
      match fs.resolve parent ⟨name⟩ with
      | .ok place => ⟨fs.root.put place (.file content)⟩
      | .error _ => ⟨fs.root.put (parent ++ [name]) (.file content)⟩

def remove (fs : FileSystem) (here : List Name) (p : Path) : FileSystem × Bool :=
  match fs.resolve here p false with
  | .ok place => (⟨fs.root.erase place⟩, true)
  | .error _ => (fs, false)

end FileSystem

end TestExplorer
