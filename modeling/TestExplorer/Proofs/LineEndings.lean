import TestExplorer.Proofs.Scan.Lines
import TestExplorer.Server.Diagnostics

set_option autoImplicit false

namespace TestExplorer

theorem Text.lines_withReturns {text : List Char} (plain : '\r' ∉ text) :
    lines (withReturns text) = lines text := by
  induction text with
  | nil => rfl
  | cons c rest ih =>
    have later := ih fun member => plain (List.mem_cons_of_mem c member)
    by_cases feed : c = '\n'
    case pos =>
      subst feed
      simp [withReturns, lines, later]
    case neg =>
      have ordinary : c ≠ '\r' := fun same => plain (same ▸ List.mem_cons_self)
      rw [withReturns, if_neg feed, lines_cons feed fun same => absurd same ordinary,
        lines_cons feed fun same => absurd same ordinary, later]

/-- A source without carriage returns, and the same source with one before each line feed. The scan
finds the same items at the same lines, warnings with the text of their lines among them, so both
are the same document, add the same to any tree and show the same diagnostics. -/
theorem scan_withReturns (source : String) (plain : '\r' ∉ source.toList) :
    let returned := String.ofList (Text.withReturns source.toList)
    scan returned = scan source ∧
      ∀ path, Document.scan path returned = Document.scan path source ∧
        ∀ t, let after := (Document.scan path returned).insertInto t
          let before := (Document.scan path source).insertInto t
          after.tree = before.tree ∧ after.found = before.found ∧
            after.found.diagnostics = before.found.diagnostics := by
  intro returned
  have lines : Text.lines returned.toList = Text.lines source.toList := by
    rw [String.toList_ofList, Text.lines_withReturns plain]
  have items : scan returned = scan source := by rw [scan, scan, lines]
  refine ⟨items, fun path => ?_⟩
  have document : Document.scan path returned = Document.scan path source := by
    rw [Document.scan, Document.scan, items]
  refine ⟨document, fun t => ?_⟩
  rw [document]
  exact ⟨rfl, rfl, rfl⟩

theorem scan_withReturns_malformed_last_line :
    let path := Path.ofString "/ws/a.pl"
    let source := ":- begin_tests(u).\n\ntest(x).\n  test("
    let returned := ":- begin_tests(u).\r\n\r\ntest(x).\r\n  test("
    let found := ((Document.scan path returned).insertInto {}).found
    '\r' ∉ source.toList ∧ returned = String.ofList (Text.withReturns source.toList) ∧
      found = ⟨path, 1, 1, [⟨.missingArgument, .testCase, 3, "  test("⟩]⟩ ∧
      found.diagnostics = [⟨3, 7, "\x60test\x60 marker has no argument; it is ignored"⟩] := by
  intro path source returned found
  have plain : '\r' ∉ source.toList := by decide
  have returns : returned = String.ofList (Text.withReturns source.toList) := by decide
  obtain ⟨-, same⟩ := scan_withReturns source plain
  obtain ⟨-, answer, shown⟩ := (same path).2 {}
  rw [← returns] at answer shown
  exact ⟨plain, returns, answer.trans (by decide +kernel), shown.trans (by decide +kernel)⟩

end TestExplorer
