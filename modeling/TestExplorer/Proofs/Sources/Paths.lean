import TestExplorer.Config
import TestExplorer.FileSystem.Basic
import TestExplorer.Proofs.Components

set_option autoImplicit false

namespace TestExplorer

namespace Path

def IsName (name : Name) : Prop :=
  slash ∉ name ∧ name ∉ [[], [dot], [dot, dot]]

instance (name : Name) : Decidable (IsName name) :=
  inferInstanceAs (Decidable (slash ∉ name ∧ name ∉ [[], [dot], [dot, dot]]))

def below (root : Path) (names : List Name) : Path :=
  names.foldl child root

theorem child_below (root : Path) (above : List Name) (name : Name) :
    (root.below above).child name = root.below (above ++ [name]) := by
  simp [below]

theorem below_below (root : Path) (above names : List Name) :
    (root.below above).below names = root.below (above ++ names) := by
  simp [below]

variable {name : Name} {names : List Name}

theorem IsName.filterMap_segments (named : IsName name) :
    (segments name).filterMap Component.ofSegment? = [.name name] := by
  obtain ⟨whole, other⟩ := named
  simp only [List.mem_cons, List.not_mem_nil, or_false, not_or] at other
  rw [segments_of_not_mem whole]
  simp [Component.ofSegment?, isIdle, other]

theorem IsName.components (named : IsName name) : components ⟨name⟩ = [.name name] := by
  obtain ⟨whole, other⟩ := named
  cases name with
  | nil => exact absurd List.mem_cons_self other
  | cons b rest =>
    have start : b ≠ slash := fun same => whole (same ▸ List.mem_cons_self)
    have one := segments_of_not_mem whole
    have single : b :: rest ≠ [dot] := fun same => other (by simp [same])
    have known := IsName.filterMap_segments ⟨whole, other⟩
    rw [one] at known
    simp only [Path.components, opening, if_neg start, one, if_neg single]
    exact known

theorem components_append_slash {front : List UInt8} (nonempty : front ≠ []) (back : List UInt8) :
    components ⟨front ++ slash :: back⟩ =
      components ⟨front⟩ ++ (segments back).filterMap Component.ofSegment? := by
  cases front with
  | nil => contradiction
  | cons b rest =>
    by_cases root : b = slash
    · subst root
      rw [List.cons_append, components_rooted, components_rooted, segments_append,
        List.filterMap_append, List.cons_append]
    · have parts := segments_append (b :: rest) back
      rw [List.cons_append] at parts ⊢
      rw [components, components, opening, opening, if_neg root, if_neg root, parts]
      cases same : segments (b :: rest) with
      | nil => exact absurd same (segments_ne_nil _)
      | cons s more =>
        by_cases here : s = [dot]
        · simp [here]
        · simp only [List.cons_append, if_neg here, Option.toList_none, List.nil_append]
          rw [← List.cons_append, List.filterMap_append]

theorem components_child (p : Path) (named : IsName name) :
    (p.child name).components = p.components ++ [.name name] := by
  obtain ⟨bytes⟩ := p
  by_cases empty : bytes = []
  · subst empty
    exact named.components
  by_cases closed : bytes.getLast? = some slash
  · obtain ⟨front, rfl⟩ := List.getLast?_eq_some_iff.1 closed
    have child : child ⟨front ++ [slash]⟩ name = ⟨front ++ slash :: name⟩ := by simp [child]
    have idle : (segments []).filterMap Component.ofSegment? = [] := rfl
    rw [child]
    by_cases bare : front = []
    · subst bare
      simp [components_rooted, named.filterMap_segments, idle]
    · rw [components_append_slash bare, components_append_slash bare, named.filterMap_segments,
        idle, List.append_nil]
  · have child : child ⟨bytes⟩ name = ⟨bytes ++ slash :: name⟩ := by simp [child, empty, closed]
    rw [child, components_append_slash empty, named.filterMap_segments]

theorem components_below (root : Path) (named : ∀ name ∈ names, IsName name) :
    (root.below names).components = root.components ++ names.map .name := by
  induction names generalizing root with
  | nil => simp [below]
  | cons name rest ih =>
    have later := ih (root.child name) fun n member => named n (List.mem_cons_of_mem name member)
    have first := components_child root (named name List.mem_cons_self)
    rw [below, List.foldl_cons, ← below, later, first, List.map_cons, List.append_assoc]
    rfl

/-! ## The order of paths -/

theorem Component.key_inj {a b : Component} (same : a.key = b.key) : a = b := by
  cases a <;> cases b <;> simp_all [Component.key]
  next one other => exact (List.map_inj_right fun _ _ => UInt8.toNat_inj.1).1 same

theorem key_eq_iff (p q : Path) : p.key = q.key ↔ p.Same q := by
  refine ⟨fun same => ?_, fun same => congrArg (List.map Component.key) same⟩
  exact (List.map_inj_right fun _ _ => Component.key_inj).1 same

theorem key_below_inj (root : Path) {others : List Name} (named : ∀ name ∈ names, IsName name)
    (named' : ∀ name ∈ others, IsName name)
    (same : (root.below names).key = (root.below others).key) : names = others := by
  have alike := (key_eq_iff _ _).1 same
  rw [Same, components_below root named, components_below root named'] at alike
  have tails := List.append_cancel_left alike
  exact (List.map_inj_right fun _ _ => Component.name.inj).1 tails

theorem le_trans (p q r : Path) (first : p.le q) (second : q.le r) : p.le r := by
  simp only [le, decide_eq_true_eq, List.not_lt] at first second ⊢
  exact List.le_trans first second

theorem le_total (p q : Path) : p.le q || q.le p := by
  simp only [le, Bool.or_eq_true, decide_eq_true_eq, List.not_lt]
  exact List.le_total p.key q.key

theorem mem_sort {paths : List Path} {p : Path} : p ∈ sort paths ↔ p ∈ paths :=
  (List.mergeSort_perm paths le).mem_iff

theorem sort_strict {paths : List Path} (distinct : paths.Pairwise (·.key ≠ ·.key)) :
    (sort paths).Pairwise (·.key < ·.key) := by
  have ordered := List.pairwise_mergeSort le_trans le_total paths
  have apart : (sort paths).Pairwise (·.key ≠ ·.key) :=
    distinct.perm (List.mergeSort_perm paths le).symm Ne.symm
  refine (ordered.and apart).imp fun {p q} both => ?_
  obtain ⟨before, other⟩ := both
  simp only [le, decide_eq_true_eq] at before
  by_cases after : p.key < q.key
  · exact after
  · exact absurd (List.le_antisymm (List.not_lt.1 before) (List.not_lt.1 after)) other

/-! ## Extensions -/

theorem splitLastDot?_eq_none_iff : splitLastDot? name = none ↔ dot ∉ name := by
  induction name with
  | nil => simp [splitLastDot?]
  | cons b rest ih =>
    cases later : splitLastDot? rest with
    | some both =>
      have dotted : dot ∈ rest := by simpa [later] using ih
      simp [splitLastDot?, later, dotted]
    | none =>
      have plain : dot ∉ rest := ih.1 later
      by_cases start : b = dot
      · simp [splitLastDot?, later, start]
      · simp [splitLastDot?, later, start, plain, Ne.symm start]

theorem splitLastDot?_append (stem : List UInt8) {ext : List UInt8} (last : dot ∉ ext) :
    splitLastDot? (stem ++ dot :: ext) = some (stem, ext) := by
  induction stem with
  | nil => simp [splitLastDot?, splitLastDot?_eq_none_iff.2 last]
  | cons b stem ih => simp [splitLastDot?, ih]

theorem splitLastDot?_eq_some_iff {stem ext : List UInt8} :
    splitLastDot? name = some (stem, ext) ↔ name = stem ++ dot :: ext ∧ dot ∉ ext := by
  constructor
  case mpr =>
    rintro ⟨rfl, last⟩
    exact splitLastDot?_append stem last
  case mp =>
    intro split
    induction name generalizing stem with
    | nil => contradiction
    | cons b rest ih =>
      rw [splitLastDot?] at split
      cases later : splitLastDot? rest with
      | some both =>
        simp only [later, Option.some.injEq, Prod.mk.injEq] at split
        obtain ⟨rfl, rfl⟩ := split
        have below := ih later
        exact ⟨congrArg (b :: ·) below.1, below.2⟩
      | none =>
        simp only [later, Option.ite_none_right_eq_some, Option.some.injEq, Prod.mk.injEq] at split
        obtain ⟨rfl, rfl, rfl⟩ := split
        exact ⟨rfl, splitLastDot?_eq_none_iff.1 later⟩

theorem fileName?_child (p : Path) (named : IsName name) :
    (p.child name).fileName? = some name := by
  rw [fileName?, components_child p named, List.getLast?_concat]

theorem extension?_child_eq_some_iff (p : Path) (named : IsName name) {ext : List UInt8} :
    (p.child name).extension? = some ext ↔
      ∃ stem, stem ≠ [] ∧ name = stem ++ dot :: ext ∧ dot ∉ ext := by
  rw [extension?, fileName?_child p named, Option.bind_some]
  constructor
  case mp =>
    intro split
    split at split
    next b stem ext' parts =>
      obtain rfl := Option.some.inj split
      exact ⟨b :: stem, by simp, splitLastDot?_eq_some_iff.1 parts⟩
    next => contradiction
  case mpr =>
    rintro ⟨stem, nonempty, parts⟩
    obtain ⟨b, rest, rfl⟩ := List.exists_cons_of_ne_nil nonempty
    rw [splitLastDot?_eq_some_iff.2 parts]

end Path

namespace DiscoverySettings

def HasExtension (s : DiscoverySettings) (name : Name) : Prop :=
  ∃ ext ∈ s.extensions, ∃ stem, stem ≠ [] ∧ name = stem ++ dot :: Text.toBytes ext ∧
    dot ∉ Text.toBytes ext

def Excluded (s : DiscoverySettings) (name : Name) : Prop :=
  ∃ dir ∈ s.excludeDirs, name = Text.toBytes dir

theorem excluded_iff (s : DiscoverySettings) (name : Name) :
    s.Excluded name ↔ ∃ text, Text.ofBytes? name = some text ∧ s.excludes text := by
  simp only [Excluded, excludes, List.contains_iff_mem, Text.ofBytes?_eq_some_iff, @eq_comm _ name]
  exact exists_congr fun _ => and_comm

theorem recognizes_child_iff (s : DiscoverySettings) (p : Path) {name : Name}
    (named : Path.IsName name) : s.recognizes (p.child name) ↔ s.HasExtension name := by
  have known (text : String) : (p.child name).extension?.bind Text.ofBytes? = some text ↔
      ∃ stem, stem ≠ [] ∧ name = stem ++ dot :: Text.toBytes text ∧ dot ∉ Text.toBytes text := by
    rw [Option.bind_eq_some_iff, ← Path.extension?_child_eq_some_iff p named]
    constructor
    case mp =>
      rintro ⟨ext, ends, read⟩
      obtain rfl := (Text.ofBytes?_eq_some_iff ext text).1 read
      exact ends
    case mpr => exact fun ends => ⟨_, ends, Text.ofBytes?_toBytes text⟩
  constructor
  case mp =>
    intro recognized
    rw [recognizes] at recognized
    split at recognized
    next text read => exact ⟨text, List.contains_iff_mem.1 recognized, (known text).1 read⟩
    next => contradiction
  case mpr =>
    rintro ⟨text, listed, ends⟩
    rw [recognizes, (known text).2 ends]
    exact List.contains_iff_mem.2 listed

end DiscoverySettings

end TestExplorer
