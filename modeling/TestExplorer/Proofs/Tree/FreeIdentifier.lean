import Mathlib.Data.Nat.Find
import Mathlib.Logic.Function.Iterate
import TestExplorer.Proofs.Identifier
import TestExplorer.Proofs.Tree.Contents

set_option autoImplicit false

namespace TestExplorer.Tree

theorem freeTestIdFrom_eq {t : Tree} {path : Path} {name : String} {fuel ordinal least : Nat}
    (start : ordinal ≤ least) (enough : least ≤ ordinal + fuel)
    (taken : ∀ k, ordinal ≤ k → k < least → t.hasTest (TestId.of path name k))
    (free : ¬ t.hasTest (TestId.of path name least)) :
    t.freeTestIdFrom path name fuel ordinal = TestId.of path name least := by
  induction fuel generalizing ordinal with
  | zero =>
    obtain rfl : ordinal = least := by omega
    rfl
  | succ fuel ih =>
    by_cases here : ordinal = least
    · subst here
      simp [freeTestIdFrom, free]
    · simp only [freeTestIdFrom, taken ordinal (Nat.le_refl _) (by omega), if_true]
      exact ih (by omega) (by omega) fun k low high => taken k (by omega) high

-- Were all of the first ordinals taken, the tree would hold more tests than it does.
theorem exists_free_ordinal (t : Tree) (path : Path) (name : String) :
    ∃ k, 1 ≤ k ∧ k ≤ t.testCount + 1 ∧ ¬ t.hasTest (TestId.of path name k) := by
  by_contra none
  push Not at none
  let ids := (List.range (t.testCount + 1)).map fun k => TestId.of path name (k + 1)
  have distinct : ids.Nodup := by
    refine List.Nodup.map_on ?_ List.nodup_range
    intro j _ k _ same
    have := TestId.ordinal_inj (by omega) (by omega) same
    omega
  have held : ids ⊆ t.tests.map (·.id) := by
    intro id member
    obtain ⟨k, inside, rfl⟩ := List.mem_map.1 member
    have taken := none (k + 1) (by omega) (List.mem_range.1 inside)
    simpa using (t.hasTest_iff _).1 taken
  have bound := (List.subperm_of_subset distinct held).length_le
  simp only [ids, List.length_map, List.length_range, testCount_eq] at bound
  omega

theorem freeTestId_least (t : Tree) (path : Path) (name : String) :
    ∃ k, 1 ≤ k ∧ k ≤ t.testCount + 1 ∧ t.freeTestId path name = TestId.of path name k ∧
      ¬ t.hasTest (TestId.of path name k) ∧
      ∀ j, 1 ≤ j → j < k → t.hasTest (TestId.of path name j) := by
  classical
  have some := t.exists_free_ordinal path name
  obtain ⟨first, bounded, free⟩ := Nat.find_spec some
  have taken (j : Nat) (positive : 1 ≤ j) (below : j < Nat.find some) :
      t.hasTest (TestId.of path name j) := by
    by_contra open'
    exact Nat.find_min some below ⟨positive, by omega, open'⟩
  exact ⟨Nat.find some, first, bounded, freeTestIdFrom_eq first (by omega) taken free, free, taken⟩

theorem freeTestId_congr {t t' : Tree} {path : Path} {name : String}
    (same : ∀ k, t.hasTest (TestId.of path name k) = t'.hasTest (TestId.of path name k)) :
    t.freeTestId path name = t'.freeTestId path name := by
  obtain ⟨j, first, -, found, free, taken⟩ := t.freeTestId_least path name
  obtain ⟨k, first', -, found', free', taken'⟩ := t'.freeTestId_least path name
  rw [found, found']
  rcases Nat.lt_trichotomy j k with less | rfl | more
  · exact absurd (same j ▸ taken' j first less) free
  · rfl
  · exact absurd (same k ▸ taken k first' more) free'

/-! ## The search, probe by probe -/

inductive Search where
  | asking (ordinal : Nat)
  | found (id : TestId)
  deriving DecidableEq

/-- A probe asks for the identifier of one ordinal. The search ends where that is free, and else goes
on to the next ordinal, without a bound. -/
def probe (t : Tree) (path : Path) (name : String) : Search → Search
  | .asking ordinal =>
    if t.hasTest (TestId.of path name ordinal) then .asking (ordinal + 1)
    else .found (TestId.of path name ordinal)
  | .found id => .found id

section

variable {t : Tree} {path : Path} {name : String}

theorem probe_taken {ordinal : Nat} (taken : t.hasTest (TestId.of path name ordinal)) :
    t.probe path name (.asking ordinal) = .asking (ordinal + 1) := by
  simp [probe, taken]

theorem probe_free {ordinal : Nat} (free : ¬ t.hasTest (TestId.of path name ordinal)) :
    t.probe path name (.asking ordinal) = .found (TestId.of path name ordinal) := by
  simp [probe, free]

variable {least : Nat} (taken : ∀ j, 1 ≤ j → j < least → t.hasTest (TestId.of path name j))
include taken

theorem probes_below {probes : Nat} (below : probes < least) :
    (t.probe path name)^[probes] (.asking 1) = .asking (probes + 1) := by
  induction probes with
  | zero => rfl
  | succ probes ih =>
    have here := taken (probes + 1) (Nat.le_add_left 1 probes) below
    rw [Function.iterate_succ_apply', ih (Nat.lt_of_succ_lt below), probe_taken here]

-- The probe of the least free ordinal answers, and the answer stays.
theorem probes_above (first : 1 ≤ least) (free : ¬ t.hasTest (TestId.of path name least))
    {probes : Nat} (above : least ≤ probes) :
    (t.probe path name)^[probes] (.asking 1) = .found (TestId.of path name least) := by
  induction probes, above using Nat.le_induction with
  | base =>
    obtain ⟨before, rfl⟩ := Nat.exists_eq_add_of_le' first
    rw [Function.iterate_succ_apply', probes_below taken (Nat.lt_succ_self before),
      probe_free free]
  | succ probes _ ih =>
    rw [Function.iterate_succ_apply', ih]
    rfl

end

/-- The search ends in any tree, for any document and name. It answers with its `k`-th probe and not
before, where `k` is the least ordinal whose identifier no test of the tree has, and that is one more
than there are tests at most. The answer is the free identifier that the tree gives. -/
theorem search_ends (t : Tree) (path : Path) (name : String) :
    ∃ k, 1 ≤ k ∧ k ≤ t.testCount + 1 ∧
      (∀ probes, (t.probe path name)^[probes] (.asking 1) =
        if probes < k then .asking (probes + 1) else .found (TestId.of path name k)) ∧
      t.freeTestId path name = TestId.of path name k ∧
      (∀ s ∈ t.suites, ∀ x ∈ s.tests, x.id ≠ TestId.of path name k) ∧
      ∀ j, 1 ≤ j → j < k → ∃ s ∈ t.suites, ∃ x ∈ s.tests, x.id = TestId.of path name j := by
  obtain ⟨k, first, bounded, answer, free, taken⟩ := t.freeTestId_least path name
  refine ⟨k, first, bounded, fun probes => ?run, answer, fun s holder x member same => ?free,
    fun j positive below => ?taken⟩
  case run =>
    split
    next below => exact probes_below taken below
    next above => exact probes_above taken first free (Nat.le_of_not_lt above)
  case free =>
    exact free ((t.hasTest_iff _).2 ⟨x, (t.mem_tests x).2 ⟨s, holder, member⟩, same⟩)
  case taken =>
    obtain ⟨x, member, same⟩ := (t.hasTest_iff _).1 (taken j positive below)
    obtain ⟨s, holder, inside⟩ := (t.mem_tests x).1 member
    exact ⟨s, holder, x, inside, same⟩

-- A name that ends like an ordinal has taken what the second test of another name would get.
example :
    let path := Path.ofString "/a.pl"
    let t := ((Document.scan path ":- begin_tests(u).\ntest(a).\ntest(a#2).\n").insertInto {}).tree
    t.freeTestId path "a" = TestId.of path "a" 3 ∧
      (t.probe path "a")^[3] (.asking 1) = .found ⟨"test:/a.pl:a#3"⟩ ∧
      t.freeTestId path "a#2" = ⟨"test:/a.pl:a#2#2"⟩ := by decide

end TestExplorer.Tree
