import TestExplorer.FileSystem.Basic

set_option autoImplicit false

namespace TestExplorer

inductive FileType where
  | file
  | dir
  | link
  deriving DecidableEq

def Inode.fileType : Inode → FileType
  | file _ => .file
  | dir _ => .dir
  | link _ => .link

def isHidden (name : Name) : Bool :=
  name.head? == some dot

structure WalkEntry where
  path : Path
  depth : Nat
  name : Name
  fileType : Option FileType
  deriving DecidableEq

structure WalkError where
  depth : Option Nat
  text : String
  deriving DecidableEq

/-- The walk below a root. It passes over hidden and ignored entries and those that the filter
rejects. -/
class Walker where
  walk : Site → Path → (WalkEntry → Bool) → List (Except WalkError WalkEntry)

end TestExplorer
