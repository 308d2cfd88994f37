import TestExplorer.Proofs.Sources.Paths
import TestExplorer.Walker

set_option autoImplicit false

namespace TestExplorer

namespace Inode

theorem mem_of_find? {entries : List (Name × Inode)} {name : Name} {node : Inode}
    (found : find? name entries = some node) : (name, node) ∈ entries := by
  induction entries with
  | nil => contradiction
  | cons entry rest ih =>
    obtain ⟨known, other⟩ := entry
    rw [find?] at found
    split at found
    next same =>
      obtain rfl := Option.some.inj found
      exact same ▸ List.mem_cons_self
    next => exact List.mem_cons_of_mem _ (ih found)

theorem find?_of_mem {entries : List (Name × Inode)} (distinct : (entries.map (·.1)).Nodup)
    {name : Name} {node : Inode} (member : (name, node) ∈ entries) :
    find? name entries = some node := by
  induction entries with
  | nil => contradiction
  | cons entry rest ih =>
    rw [List.map_cons, List.nodup_cons] at distinct
    obtain ⟨fresh, distinct⟩ := distinct
    cases member with
    | head => simp [find?]
    | tail _ member =>
      have other : entry.1 ≠ name := fun same =>
        fresh (same ▸ List.mem_map_of_mem (f := (·.1)) member)
      simp [find?, other, ih distinct member]

theorem get?_cons_eq_some_iff {entries : List (Name × Inode)} {name : Name} {rest : List Name}
    {inner : Inode} : (dir entries).get? (name :: rest) = some inner ↔
      ∃ node, find? name entries = some node ∧ node.get? rest = some inner := by
  rw [get?]
  cases find? name entries <;> simp

inductive Everywhere (P : List (Name × Inode) → Prop) : Inode → Prop
  | file (content : Content) : Everywhere P (.file content)
  | link (target : Path) : Everywhere P (.link target)
  | dir {entries : List (Name × Inode)} (here : P entries)
      (below : ∀ entry ∈ entries, Everywhere P entry.2) : Everywhere P (.dir entries)

variable {P : List (Name × Inode) → Prop} {node inner : Inode} {names : List Name}

theorem everywhere_dir_iff {entries : List (Name × Inode)} :
    Everywhere P (.dir entries) ↔ P entries ∧ ∀ entry ∈ entries, Everywhere P entry.2 := by
  constructor
  case mp =>
    rintro (_ | _ | ⟨here, below⟩)
    exact ⟨here, below⟩
  case mpr => exact fun ⟨here, below⟩ => .dir here below

mutual

def decideEverywhere [DecidablePred P] : (node : Inode) → Decidable (Everywhere P node)
  | .file content => isTrue (.file content)
  | .link target => isTrue (.link target)
  | .dir entries =>
    have := decideBelow entries
    decidable_of_iff' _ everywhere_dir_iff

def decideBelow [DecidablePred P] :
    (entries : List (Name × Inode)) → Decidable (∀ entry ∈ entries, Everywhere P entry.2)
  | [] => isTrue (by simp)
  | (_, node) :: rest =>
    have := decideEverywhere node
    have := decideBelow rest
    decidable_of_iff' _ List.forall_mem_cons

end

instance [DecidablePred P] (node : Inode) : Decidable (Everywhere P node) :=
  decideEverywhere node

theorem Everywhere.get? (all : Everywhere P node) (found : node.get? names = some inner) :
    Everywhere P inner := by
  induction names generalizing node with
  | nil => exact Option.some.inj found ▸ all
  | cons name rest ih =>
    cases all with
    | file content => contradiction
    | link target => contradiction
    | dir here below =>
      obtain ⟨next, entry, later⟩ := get?_cons_eq_some_iff.1 found
      exact ih (below _ (mem_of_find? entry)) later

def ProperEntries (entries : List (Name × Inode)) : Prop :=
  (entries.map (·.1)).Nodup ∧ ∀ entry ∈ entries, Path.IsName entry.1

instance : DecidablePred ProperEntries := fun entries =>
  inferInstanceAs (Decidable ((entries.map (·.1)).Nodup ∧ ∀ entry ∈ entries, Path.IsName entry.1))

abbrev Proper : Inode → Prop :=
  Everywhere ProperEntries

theorem Proper.isName (proper : node.Proper) (found : node.get? names = some inner) :
    ∀ name ∈ names, Path.IsName name := by
  induction names generalizing node with
  | nil => simp
  | cons name rest ih =>
    cases proper with
    | file content => contradiction
    | link target => contradiction
    | dir here below =>
      obtain ⟨next, entry, later⟩ := get?_cons_eq_some_iff.1 found
      have member := mem_of_find? entry
      exact List.forall_mem_cons.2 ⟨here.2 _ member, ih (below _ member) later⟩

theorem get?_append_eq_some_iff {rest : List Name} : node.get? (names ++ rest) = some inner ↔
    ∃ mid, node.get? names = some mid ∧ mid.get? rest = some inner := by
  induction names generalizing node with
  | nil => simp [Inode.get?]
  | cons name names ih =>
    cases node with
    | file content => simp [Inode.get?]
    | link target => simp [Inode.get?]
    | dir entries =>
      simp only [List.cons_append, get?_cons_eq_some_iff, ih]
      constructor
      case mp =>
        rintro ⟨next, entry, mid, first, later⟩
        exact ⟨mid, ⟨next, entry, first⟩, later⟩
      case mpr =>
        rintro ⟨mid, ⟨next, entry, first⟩, later⟩
        exact ⟨next, entry, mid, first, later⟩

theorem isDir_of_get? {rest : List Name} (deeper : rest ≠ []) (found : node.get? rest = some inner) :
    node.isDir := by
  cases rest with
  | nil => contradiction
  | cons name rest =>
    cases node with
    | dir entries => rfl
    | file _ => contradiction
    | link _ => contradiction

end Inode

theorem FileSystem.stat_eq_ok_iff {fs : FileSystem} {here : List Name} {p : Path} {node : Inode} :
    fs.stat here p = .ok node ↔
      ∃ place, fs.resolve here p = .ok place ∧ fs.root.get? place = some node := by
  rw [stat]
  cases fs.resolve here p with
  | error cause => simp [bind, Except.bind]
  | ok place =>
    cases found : fs.root.get? place <;> simp [bind, Except.bind, found, pure, Except.pure]

/-! ## Walks -/

namespace WalkEntry

structure At (root : Path) (names : List Name) (node : Inode) (entry : WalkEntry) : Prop where
  path : entry.path = root.below names
  depth : entry.depth = names.length
  name : ∀ name ∈ names.getLast?, entry.name = name
  fileType : entry.fileType = some node.fileType

def ofPlace (root : Path) (names : List Name) (node : Inode) : WalkEntry where
  path := root.below names
  depth := names.length
  name := names.getLast?.getD []
  fileType := some node.fileType

theorem at_ofPlace (root : Path) (names : List Name) (node : Inode) :
    (ofPlace root names node).At root names node :=
  ⟨rfl, rfl, fun name last => by rw [ofPlace, Option.mem_def.1 last]; rfl, rfl⟩

theorem At.eq_ofPlace {root : Path} {names : List Name} {node : Inode} {entry : WalkEntry}
    (stands : entry.At root names node) (below : names ≠ []) : entry = ofPlace root names node := by
  obtain ⟨path, depth, name, fileType⟩ := entry
  obtain ⟨rfl, rfl, named, rfl⟩ := stands
  have last : names.getLast? = some (names.getLast below) := List.getLast?_eq_some_getLast below
  simp [ofPlace, last, ← named _ last]

end WalkEntry

namespace Walker

def Passes (filter : WalkEntry → Bool) (root : Path) (tree : Inode) (names : List Name) : Prop :=
  ∀ node entry, tree.get? names = some node → entry.At root names node → filter entry

/-- A walk in a tree without ignore files. It goes on from an entry only when the filter accepts that
entry. Whether an entry that the filter rejects is itself part of the walk is left open. -/
structure Walks [Walker] (site : Site) (root : Path) (tree : Inode) (filter : WalkEntry → Bool) :
    Prop where
  sound : ∀ item ∈ walk site root filter, ∃ names node entry, item = .ok entry ∧
    tree.get? names = some node ∧ entry.At root names node ∧ (∀ name ∈ names, ¬ isHidden name) ∧
    ∀ above, above <+: names → above ≠ names → Passes filter root tree above
  complete : ∀ names node, names ≠ [] → tree.get? names = some node →
    (∀ name ∈ names, ¬ isHidden name) →
    (∀ above, above <+: names → Passes filter root tree above) →
    .ok (.ofPlace root names node) ∈ walk site root filter
  once : (walk site root filter).Nodup

end Walker

end TestExplorer
