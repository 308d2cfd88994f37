import TestExplorer.Text.Utf8

set_option autoImplicit false

namespace TestExplorer

def slash : UInt8 := 0x2F
def dot : UInt8 := 0x2E

structure Path where
  bytes : List UInt8
  deriving DecidableEq, Inhabited

namespace Path

inductive Component where
  | root
  | here
  | up
  | name (bytes : List UInt8)
  deriving DecidableEq

def ofString (text : String) : Path :=
  ⟨Text.toBytes text⟩

def display (p : Path) : String :=
  Text.ofBytes p.bytes

def text? (p : Path) : Option String :=
  Text.ofBytes? p.bytes

-- The stretches between separators; a separator at an end leaves an empty one there.
def segments : List UInt8 → List (List UInt8)
  | [] => [[]]
  | b :: rest =>
    if b = slash then [] :: segments rest
    else match segments rest with
      | [] => [[b]]
      | s :: more => (b :: s) :: more

-- Empty stretches and dots name nothing.
def isIdle (segment : List UInt8) : Bool :=
  segment.isEmpty || segment == [dot]

def Component.ofSegment? (segment : List UInt8) : Option Component :=
  if isIdle segment then none
  else if segment = [dot, dot] then some .up
  else some (.name segment)

def opening : List UInt8 → Option Component × List (List UInt8)
  | [] => (none, [])
  | b :: rest =>
    if b = slash then (some .root, segments rest)
    else match segments (b :: rest) with
      | [] => (none, [])
      | s :: more => if s = [dot] then (some .here, more) else (none, s :: more)

def components (p : Path) : List Component :=
  let (first, body) := opening p.bytes
  first.toList ++ body.filterMap Component.ofSegment?

/-- Both paths have the same components, so they name the same place. -/
def Same (p q : Path) : Prop :=
  p.components = q.components

instance (p q : Path) : Decidable (Same p q) :=
  inferInstanceAs (Decidable (p.components = q.components))

def isAbsolute (p : Path) : Bool :=
  p.bytes.head? == some slash

def Component.key : Component → List Nat
  | .root => [0]
  | .here => [1]
  | .up => [2]
  | .name bytes => 3 :: bytes.map UInt8.toNat

def key (p : Path) : List (List Nat) :=
  p.components.map Component.key

def le (p q : Path) : Bool :=
  decide (¬ q.key < p.key)

def sort (paths : List Path) : List Path :=
  paths.mergeSort le

def fileName? (p : Path) : Option (List UInt8) :=
  match p.components.getLast? with
  | some (.name bytes) => some bytes
  | _ => none

def splitLastDot? : List UInt8 → Option (List UInt8 × List UInt8)
  | [] => none
  | b :: rest =>
    match splitLastDot? rest with
    | some (stem, ext) => some (b :: stem, ext)
    | none => if b = dot then some ([], rest) else none

def extension? (p : Path) : Option (List UInt8) :=
  match p.fileName?.bind splitLastDot? with
  | some (_ :: _, ext) => some ext
  | _ => none

def child (p : Path) (name : List UInt8) : Path :=
  if p.bytes.isEmpty || p.bytes.getLast? == some slash then ⟨p.bytes ++ name⟩
  else ⟨p.bytes ++ slash :: name⟩

-- `q` seen from `p`: an absolute path stays what it is.
def join (p q : Path) : Path :=
  if q.isAbsolute then q else p.child q.bytes

def joinSegments : List (List UInt8) → List UInt8
  | [] => []
  | [s] => s
  | s :: more => s ++ slash :: joinSegments more

def dropIdle (body : List (List UInt8)) : List (List UInt8) :=
  body.dropWhile isIdle

def dropIdleEnd (body : List (List UInt8)) : List (List UInt8) :=
  (body.reverse.dropWhile isIdle).reverse

def dropNames : Nat → List (List UInt8) → List (List UInt8)
  | 0, body => body
  | _, [] => []
  | k + 1, s :: rest => if isIdle s then dropNames (k + 1) rest else dropNames k rest

def ofOpening (first : Option Component) (body : List (List UInt8)) : Path :=
  match first with
  | some .root => ⟨slash :: joinSegments body⟩
  | some .here => ⟨joinSegments ([dot] :: body)⟩
  | _ => ⟨joinSegments body⟩

def stripPrefix? (p base : Path) : Option Path :=
  if base.components.isPrefixOf p.components then
    let (first, body) := opening p.bytes
    match base.components.length with
    | 0 => some (ofOpening first (dropIdleEnd body))
    | n + 1 =>
      let left := if first.isSome then dropNames n body else dropNames (n + 1) body
      some ⟨joinSegments (dropIdleEnd (dropIdle left))⟩
  else none

def relativeTo (p base : Path) : Path :=
  (p.stripPrefix? base).getD p

def parent? (p : Path) : Option Path :=
  match p.components.getLast? with
  | none => none
  | some .root => none
  | some .here => some ⟨[]⟩
  | some _ =>
    let (first, body) := opening p.bytes
    some (ofOpening first (dropIdleEnd (dropIdleEnd body).dropLast))

end Path

end TestExplorer
