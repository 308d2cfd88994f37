import TestExplorer.Ignore.Rules
import TestExplorer.Sources

/-!
A walker. Links below a root are not followed. Ignore files count from the root's topmost parent
down; of a file's own directory and those above it, the nearest rules decide first.
-/

set_option autoImplicit false

namespace TestExplorer.Ignore

structure Level where
  dir : Path
  plain : List Rule
  git : List Rule
  exclude : List Rule

def Level.below (l : Level) (path : List UInt8) : List UInt8 :=
  if l.dir.bytes.isPrefixOf path then
    match path.drop l.dir.bytes.length with
    | b :: rest => if b = slash then rest else b :: rest
    | [] => []
  else path

def firstOf (levels : List Level) (rules : Level → List Rule) (path : List UInt8)
    (isDir : Bool) : Verdict :=
  levels.foldr (fun l later => (decideBy (rules l) (l.below path) isDir).orElse later) .undecided

def readFile (fs : FileSystem) (place : List Name) (file : Name) : List Rule × List RuleError :=
  match fs.read place ⟨file⟩ with
  | .ok bytes => readRules 1 (byteLines bytes)
  | .error .isDirectory => ([], [.io 1 .isDirectory])
  | .error _ => ([], [])

def plainFile : Name := Text.toBytes ".ignore"
def gitFile : Name := Text.toBytes ".gitignore"
def excludeFile : Name := Text.toBytes ".git/info/exclude"

def complaints (dir : Path) (file : Name) (errors : List RuleError) : List String :=
  match errors with
  | [e] => if e.isIo then [] else [e.message (dir.child file)]
  | _ => errors.map (RuleError.message (dir.child file))

def Level.of (fs : FileSystem) (place : List Name) (dir : Path) : Level × List String :=
  let (plain, plainErrors) := readFile fs place plainFile
  let (git, gitErrors) := readFile fs place gitFile
  let (exclude, excludeErrors) := readFile fs place excludeFile
  ({ dir, plain, git, exclude },
    complaints dir plainFile plainErrors ++ complaints dir gitFile gitErrors ++
      complaints dir excludeFile excludeErrors)

-- The levels above a place, nearest first, and what is wrong with them, topmost first.
def levelsAbove (fs : FileSystem) (done : List Name) :
    List Name → List Level × List String → List Level × List String
  | [], found => found
  | name :: rest, (levels, errors) =>
    let (level, more) := Level.of fs done (FileSystem.pathOf done)
    levelsAbove fs (done ++ [name]) rest (level :: levels, errors ++ more)

structure Walk where
  site : Site
  filter : WalkEntry → Bool
  root : Path
  -- Where the root is when all links are followed.
  place : List Name
  above : List Level

namespace Walk

def canonicalBytes (w : Walk) (path : Path) : List UInt8 :=
  let inner := if w.root.bytes.isPrefixOf path.bytes then path.bytes.drop w.root.bytes.length
    else path.bytes
  let inner := match inner with
    | b :: rest => if b = slash then rest else b :: rest
    | [] => []
  ((FileSystem.pathOf w.place).child inner).bytes

def decide (w : Walk) (levels : List Level) (path : Path) (isDir : Bool) : Verdict :=
  let canonical := w.canonicalBytes path
  let by' (rules : Level → List Rule) : Verdict :=
    (firstOf levels rules path.bytes isDir).orElse (firstOf w.above rules canonical isDir)
  ((by' (·.plain)).orElse (by' (·.git))).orElse (by' (·.exclude))

-- Hidden entries are passed over unless a rule takes them in.
def admits (w : Walk) (levels : List Level) (entry : WalkEntry) : Bool :=
  (match w.decide levels entry.path (entry.fileType == some .dir) with
    | .ignored => false
    | .kept => true
    | .undecided => !isHidden entry.name) &&
  w.filter entry

def childEntry (path : Path) (depth : Nat) (name : Name) (node : Inode) : WalkEntry where
  path := path.child name
  depth := depth + 1
  name := name
  fileType := some node.fileType

mutual

def entriesIn (w : Walk) (levels : List Level) (place : List Name) (path : Path) (depth : Nat) :
    Inode → List WalkEntry
  | .dir entries =>
    let level := (Level.of w.site.fs place path).1
    entriesOf w (level :: levels) place path depth entries
  | .file _ => []
  | .link _ => []

def entriesOf (w : Walk) (levels : List Level) (place : List Name) (path : Path) (depth : Nat) :
    List (Name × Inode) → List WalkEntry
  | [] => []
  | (name, node) :: rest =>
    (if w.admits levels (childEntry path depth name node) then
      childEntry path depth name node ::
        entriesIn w levels (place ++ [name]) (path.child name) (depth + 1) node
    else []) ++ entriesOf w levels place path depth rest

end

end Walk

def rootEntry (root : Path) (node : Inode) : WalkEntry where
  path := root
  depth := 0
  name := root.fileName?.getD root.bytes
  fileType := some node.fileType

def walk (site : Site) (root : Path) (filter : WalkEntry → Bool) :
    List (Except WalkError WalkEntry) :=
  match site.fs.resolve site.here root with
  | .error cause => [.error { depth := some 0, text := cause.message }]
  | .ok place =>
    match site.fs.root.get? place with
    | none => [.error { depth := some 0, text := IoError.notFound.message }]
    | some node =>
      match levelsAbove site.fs [] place ([], []) with
      | (above, []) =>
        let w : Walk := { site, filter, root, place, above }
        (rootEntry root node :: w.entriesIn [] place root 0 node).map .ok
      | (_, errors) => [.error { depth := none, text := String.intercalate "\n" errors }]

instance : Walker where
  walk := walk

def sources (site : Site) (settings : DiscoverySettings) (root : Path) :
    Except EngineError (List Path) :=
  (listSources site settings root).1

end TestExplorer.Ignore
