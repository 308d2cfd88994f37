import TestExplorer.Path

set_option autoImplicit false

namespace TestExplorer

namespace Path

theorem segments_ne_nil (bytes : List UInt8) : segments bytes ≠ [] := by
  cases bytes with
  | nil => simp [segments]
  | cons b rest =>
    rw [segments]
    split
    next => simp
    next => split <;> simp

theorem segments_append (a b : List UInt8) :
    segments (a ++ slash :: b) = segments a ++ segments b := by
  induction a with
  | nil => simp [segments]
  | cons c a ih =>
    rw [List.cons_append, segments, segments, ih]
    split
    next => rfl
    next =>
      cases same : segments a with
      | nil => exact absurd same (segments_ne_nil a)
      | cons s more => simp

theorem segments_of_not_mem {bytes : List UInt8} (one : slash ∉ bytes) : segments bytes = [bytes] := by
  induction bytes with
  | nil => rfl
  | cons b rest ih =>
    have other : b ≠ slash := fun same => one (same ▸ List.mem_cons_self)
    simp [segments, other, ih fun member => one (List.mem_cons_of_mem b member)]

theorem not_mem_of_segments (bytes : List UInt8) : ∀ s ∈ segments bytes, slash ∉ s := by
  induction bytes with
  | nil => simp [segments]
  | cons b rest ih =>
    rw [segments]
    split
    next => simpa using ih
    next other =>
      split
      next => simpa using Ne.symm other
      next s more same =>
        rw [same] at ih
        simpa [Ne.symm other] using ih

theorem segments_joined {name : List UInt8} {names : List (List UInt8)}
    (one : ∀ n ∈ name :: names, slash ∉ n) :
    segments (name ++ names.flatMap (slash :: ·)) = name :: names := by
  induction names generalizing name with
  | nil => simpa using segments_of_not_mem (one name List.mem_cons_self)
  | cons next names ih =>
    have later := ih fun n member => one n (List.mem_cons_of_mem name member)
    rw [List.flatMap_cons, List.cons_append, segments_append, later,
      segments_of_not_mem (one name List.mem_cons_self), List.singleton_append]

theorem components_rooted (tail : List UInt8) :
    components ⟨slash :: tail⟩ = .root :: (segments tail).filterMap Component.ofSegment? := by
  simp [components, opening]

theorem isAbsolute_iff (p : Path) : p.isAbsolute ↔ .root ∈ p.components := by
  obtain ⟨bytes⟩ := p
  have inner (body : List (List UInt8)) : .root ∉ body.filterMap Component.ofSegment? := by
    simp only [List.mem_filterMap, not_exists, not_and]
    intro s _
    unfold Component.ofSegment?
    split
    next => simp
    next => split <;> simp
  cases bytes with
  | nil => simp [isAbsolute, components, opening]
  | cons b rest =>
    by_cases root : b = slash
    · simp [isAbsolute, root, components_rooted]
    · simp only [isAbsolute, List.head?_cons, beq_iff_eq, Option.some.injEq, root, false_iff,
        components, opening, if_false]
      cases segments (b :: rest) with
      | nil => simp
      | cons s more =>
        by_cases here : s = [dot]
        · simpa [here] using inner more
        · simpa [here] using inner (s :: more)

theorem Same.isAbsolute_eq {p q : Path} (same : p.Same q) : p.isAbsolute = q.isAbsolute := by
  rw [Bool.eq_iff_iff, isAbsolute_iff, isAbsolute_iff, same]

theorem same_append_slash (tail : List UInt8) : Same ⟨slash :: (tail ++ [slash])⟩ ⟨slash :: tail⟩ := by
  have idle : Component.ofSegment? [] = none := rfl
  rw [Same, components_rooted, components_rooted, segments_append]
  simp [segments, idle]

end Path

end TestExplorer
