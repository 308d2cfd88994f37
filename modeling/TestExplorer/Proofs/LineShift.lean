import TestExplorer.Proofs.Reconciliation
import TestExplorer.Proofs.Scan.Fillers
import TestExplorer.Proofs.Tree.Moving

set_option autoImplicit false

namespace TestExplorer

variable {σ : Type}

def Tree.movedAt (path : Path) (move : Nat → Nat) (t : Tree) : Tree :=
  ⟨t.suites.map fun s => if s.path.Same path then s.moved move else s⟩

def Found.shifted (move : Nat → Nat) (closed : Option Nat) (f : Found) : Found :=
  { f with warnings := f.warnings.map (Warning.shifted move closed) }

theorem Document.fresh_shifted (path : Path) {move : Nat → Nat} {closed : Option Nat}
    {source other : String}
    (shifted : TestExplorer.scan other =
      (TestExplorer.scan source).map (ScanStep.shifted move closed)) :
    (fresh path other).tree = (fresh path source).tree.moved move ∧
      (fresh path other).found = (fresh path source).found.shifted move closed := by
  let d := scan path source
  let alone := { d with warnings := [] }.insertInto {}
  have before : fresh path source = alone.warned d.warnings := d.insertInto_warned {}
  have after : fresh path other =
      (alone.carried move (Tree.moved move)).warned (d.warnings.map (Warning.shifted move closed)) := by
    rw [fresh, scan_shifted shifted, insertInto_warned]
    exact congrArg _ (insertInto_moved move { d with warnings := [] })
  rw [before, after]
  exact ⟨rfl, rfl⟩

theorem Tree.replaced_moved {t : Tree} {path : Path} {move : Nat → Nat} {source other : String}
    (moved : (Document.fresh path other).tree = (Document.fresh path source).tree.moved move) :
    t.replaced path (some other) = (t.replaced path (some source)).movedAt path move := by
  have others : ∀ s ∈ t.suites.filter fun s => ¬ s.path.Same path,
      (if s.path.Same path then s.moved move else s) = s := by
    intro s member
    have elsewhere : ¬ s.path.Same path := by simpa using (List.mem_filter.1 member).2
    rw [if_neg elsewhere]
  have own : ∀ s ∈ (Document.fresh path source).tree.suites,
      (if s.path.Same path then s.moved move else s) = s.moved move := by
    intro s member
    have here : s.path.Same path := by
      rw [Document.path_of_blockOf path (some source) s member]
      rfl
    rw [if_pos here]
  simp only [replaced, movedAt, List.map_append, Document.blockOf_some, moved]
  rw [List.map_congr_left others, List.map_congr_left own, List.map_id']
  rfl

/-- Lines that mark nothing can be written anywhere into a source. Reconciling the longer source gives
the same answer and the same tree, with the lines of the document moved by the fillers above them.
Only the warning of a closed last line can change its text: a carriage return at its end is lost. -/
theorem reconcile_longer {h : Activity.Host σ} {reader : σ → Path → Except IoError String}
    (reading : h.Reading reader) {settings : DiscoverySettings} {path : Path}
    (recognized : settings.recognizes path) (plain : path.Plain) {s : Engine × σ}
    (built : s.1.tree.Built) (inserted : Nat → List Filler) (source : String) :
    let move (line : Nat) := line + fillersAbove inserted line
    let reconciled (source : String) := (reconcileSource settings path source).exec h s
    (∃ closed longer, Inserts inserted closed 0 source.toList longer) ∧
      ∀ closed longer, Inserts inserted closed 0 source.toList longer →
        ∃ found, (reconciled source).1 = some found ∧
          (reconciled (.ofList longer)).1 = some (found.shifted move closed) ∧
          (reconciled (.ofList longer)).2.1.tree =
            (reconciled source).2.1.tree.movedAt path move := by
  intro move reconciled
  refine ⟨exists_inserts inserted 0 source.toList, fun closed longer inserts => ?_⟩
  obtain ⟨moved, shifted⟩ := Document.fresh_shifted path inserts.scan
  obtain ⟨answer, tree⟩ := reading.reconcileSource recognized plain built.owned source
  obtain ⟨answer', tree'⟩ :=
    reading.reconcileSource recognized plain built.owned (.ofList longer)
  refine ⟨_, answer, answer'.trans (congrArg some shifted), ?_⟩
  exact tree'.trans ((Tree.replaced_moved moved).trans (congrArg _ tree.symm))

-- The warning of the last line loses its carriage return to the line feed that closes the line.
theorem reconcile_longer_by_comments :
    let path := Path.ofString "/ws/a.pl"
    let comment : Filler := ⟨"% test(no).\r".toList, by decide, by decide, by decide⟩
    let blank : Filler := ⟨[], by decide, by decide, by decide⟩
    let inserted (line : Nat) : List Filler :=
      match line with
      | 0 => [blank]
      | 2 => [blank, comment]
      | 4 => [comment]
      | _ => []
    let source := ":- begin_tests(u).\ntest(x).\ntest(x).\ntest(\r"
    let longer := "\n:- begin_tests(u).\ntest(x).\n\n% test(no).\r\ntest(x).\ntest(\r\n% test(no).\r"
    let world : Rehearsal := { site := { fs := {}, here := [] }
                               controller := { roots := [], settings := {} } }
    let shorterDone := (reconcileSource {} path source).exec Rehearsal.quietHost ({}, world)
    let longerDone := (reconcileSource {} path longer).exec Rehearsal.quietHost ({}, world)
    path.Plain ∧ ({} : DiscoverySettings).recognizes path ∧
      Inserts inserted (some 3) 0 source.toList longer.toList ∧
      shorterDone.2.1.tree.tests.map (fun x => (x.id.text, x.line)) =
        [("test:/ws/a.pl:x", 1), ("test:/ws/a.pl:x#2", 2)] ∧
      longerDone.2.1.tree.tests.map (fun x => (x.id.text, x.line)) =
        [("test:/ws/a.pl:x", 2), ("test:/ws/a.pl:x#2", 5)] ∧
      shorterDone.1.map (·.warnings) = some [⟨.missingArgument, .testCase, 3, "test(\r"⟩] ∧
      longerDone.1.map (·.warnings) = some [⟨.missingArgument, .testCase, 6, "test("⟩] := by
  intro path comment blank inserted source longer world shorterDone longerDone
  have plain : path.Plain := by decide
  have recognized : ({} : DiscoverySettings).recognizes path := by decide
  have shorter : source.toList = ":- begin_tests(u).".toList ++ '\n' ::
      ("test(x).".toList ++ '\n' :: ("test(x).".toList ++ '\n' :: "test(\r".toList)) := by decide
  have written : longer.toList = Filler.block (inserted 0) ++ (":- begin_tests(u).".toList ++ '\n' ::
      (Filler.block (inserted 1) ++ ("test(x).".toList ++ '\n' ::
        (Filler.block (inserted 2) ++ ("test(x).".toList ++ '\n' ::
          (Filler.block (inserted 3) ++ ("test(\r".toList ++ '\n' ::
            (Filler.block [] ++ comment.text)))))))) := by decide
  have inserts : Inserts inserted (some 3) 0 source.toList longer.toList := by
    rw [shorter, written]
    exact .line (by decide) (.line (by decide) (.line (by decide)
      (.closed (by decide) (by decide) (.unended [] (by decide)))))
  have warned : shorterDone.1.map (·.warnings) =
      some [⟨.missingArgument, .testCase, 3, "test(\r"⟩] := by
    decide +kernel
  obtain ⟨-, shifted⟩ := reconcile_longer Rehearsal.quietHost_reading recognized plain
    (s := ({}, world)) .empty inserted source
  obtain ⟨found, answer, answer', tree⟩ := shifted (some 3) longer.toList inserts
  rw [String.ofList_toList] at answer' tree
  have moved : longerDone.2.1.tree.tests.map (fun x => (x.id.text, x.line)) =
      (shorterDone.2.1.tree.movedAt path fun line => line + fillersAbove inserted line).tests.map
        (fun x => (x.id.text, x.line)) := by
    rw [tree]
  have faults : found.warnings = [⟨.missingArgument, .testCase, 3, "test(\r"⟩] := by
    rw [answer] at warned
    exact Option.some.inj warned
  refine ⟨plain, recognized, inserts, by decide +kernel, moved.trans (by decide +kernel), warned, ?_⟩
  rw [answer', Option.map_some]
  simp only [Found.shifted, faults]
  decide

-- One comment behind a last line that ends in a carriage return changes the text of its warning.
theorem reconcile_longer_loses_return :
    let path := Path.ofString "/ws/a.pl"
    let comment : Filler := ⟨"% c".toList, by decide, by decide, by decide⟩
    let inserted (line : Nat) : List Filler := if line = 1 then [comment] else []
    let source := ":- begin_tests(\r"
    let longer := ":- begin_tests(\r\n% c"
    let world : Rehearsal := { site := { fs := {}, here := [] }
                               controller := { roots := [], settings := {} } }
    let warned (source : String) := ((reconcileSource {} path source).exec Rehearsal.quietHost
      ({}, world)).1.map (·.warnings)
    path.Plain ∧ ({} : DiscoverySettings).recognizes path ∧
      Inserts inserted (some 0) 0 source.toList longer.toList ∧
      warned source = some [⟨.missingArgument, .suiteBegin, 0, ":- begin_tests(\r"⟩] ∧
      warned longer = some [⟨.missingArgument, .suiteBegin, 0, ":- begin_tests("⟩] := by
  intro path comment inserted source longer world warned
  have written : longer.toList = Filler.block (inserted 0) ++
      (source.toList ++ '\n' :: (Filler.block [] ++ comment.text)) := by decide
  have inserts : Inserts inserted (some 0) 0 source.toList longer.toList := by
    rw [written]
    exact .closed (by decide) (by decide) (.unended [] (by decide))
  exact ⟨by decide, by decide, inserts, by decide +kernel, by decide +kernel⟩

end TestExplorer
