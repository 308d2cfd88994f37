import TestExplorer.Proofs.Scan.Moving
import TestExplorer.Proofs.Scan.Rendering

set_option autoImplicit false

namespace TestExplorer

namespace Filler

-- Each filler as a line of its own. A carriage return before its line feed is in its text.
def block (fillers : List Filler) : List Char :=
  fillers.flatMap fun f => f.text ++ ['\n']

-- At the end of a text the last line may do without its line feed.
inductive AtEnd : List Filler → List Char → Prop
  | ended (fillers : List Filler) : AtEnd fillers (block fillers)
  | unended (fillers : List Filler) {last : Filler} : last.text ≠ [] →
      AtEnd (fillers ++ [last]) (block fillers ++ last.text)

end Filler

/-- The longer text is the text from `line` on with the fillers `inserted n` above each line `n` and
behind the last one. A last line without a line feed needs an ending before anything can stand behind
it. It is `closed` when that ending is a line feed alone. -/
inductive Inserts (inserted : Nat → List Filler) :
    Option Nat → Nat → List Char → List Char → Prop
  | line {closed : Option Nat} {line : Nat} {first text longer : List Char} :
      '\n' ∉ first → Inserts inserted closed (line + 1) text longer →
      Inserts inserted closed line (first ++ '\n' :: text)
        (Filler.block (inserted line) ++ (first ++ '\n' :: longer))
  | ended {line : Nat} {behind : List Char} :
      Filler.AtEnd (inserted line) behind → Inserts inserted none line [] behind
  | unended {line : Nat} {last : List Char} :
      '\n' ∉ last → last ≠ [] → inserted (line + 1) = [] →
      Inserts inserted none line last (Filler.block (inserted line) ++ last)
  | returned {line : Nat} {last behind : List Char} :
      '\n' ∉ last → last ≠ [] → Filler.AtEnd (inserted (line + 1)) behind →
      Inserts inserted none line last
        (Filler.block (inserted line) ++ (last ++ '\r' :: '\n' :: behind))
  | closed {line : Nat} {last behind : List Char} :
      '\n' ∉ last → last ≠ [] → Filler.AtEnd (inserted (line + 1)) behind →
      Inserts inserted (some line) line last
        (Filler.block (inserted line) ++ (last ++ '\n' :: behind))

theorem exists_inserts (inserted : Nat → List Filler) (line : Nat) (text : List Char) :
    ∃ closed longer, Inserts inserted closed line text longer := by
  by_cases feed : '\n' ∈ text
  case pos =>
    obtain ⟨first, rest, rfl, one⟩ := List.eq_append_cons_of_mem feed
    obtain ⟨closed, longer, inserts⟩ := exists_inserts inserted (line + 1) rest
    exact ⟨closed, _, .line one inserts⟩
  case neg =>
    by_cases written : text = []
    · subst written
      exact ⟨none, _, .ended (.ended _)⟩
    · exact ⟨some line, _, .closed feed written (.ended _)⟩
termination_by text.length

def fillersAbove (inserted : Nat → List Filler) (line : Nat) : Nat :=
  ((List.range (line + 1)).flatMap inserted).length

theorem fillersAbove_succ (inserted : Nat → List Filler) (line : Nat) :
    fillersAbove inserted (line + 1) =
      fillersAbove inserted line + (inserted (line + 1)).length := by
  simp [fillersAbove, List.range_succ (n := line + 1)]

theorem Filler.scanFrom_block (fillers : List Filler) (inSuite : Bool) (line : Nat)
    (rest : List Char) :
    scanFrom inSuite line (Text.lines (block fillers ++ rest)) =
      scanFrom inSuite (line + fillers.length) (Text.lines rest) := by
  induction fillers generalizing line with
  | nil => rfl
  | cons f fillers ih =>
    have kind : LineKind.of (Text.bare f.text) = .plain :=
      (Row.filler f).kind_of_read (Text.readAs_bare f.text)
    have parts : block (f :: fillers) ++ rest = f.text ++ '\n' :: (block fillers ++ rest) := by
      simp [block]
    rw [parts, Text.lines_append_cons f.oneLine, scanFrom, scanLine_eq, kind, LineKind.step, ih,
      List.length_cons, Nat.add_right_comm, Nat.add_assoc]

theorem Filler.AtEnd.scanFrom {fillers : List Filler} {behind : List Char}
    (stands : AtEnd fillers behind) (inSuite : Bool) (line : Nat) :
    scanFrom inSuite line (Text.lines behind) = [] := by
  cases stands with
  | ended => simpa [Text.lines, TestExplorer.scanFrom] using scanFrom_block fillers inSuite line []
  | @unended fillers last written =>
    have kind : LineKind.of last.text = .plain := (Row.filler last).kind_text
    rw [scanFrom_block, Text.lines_eq_self last.oneLine written, TestExplorer.scanFrom, scanLine_eq,
      kind]
    rfl

theorem scanFrom_cons_shifted (move : Nat → Nat) (closed : Option Nat) {inSuite : Bool} {line : Nat}
    {text : List Char} {texts texts' : List (List Char)}
    (later : ∀ inSuite, scanFrom inSuite (move line + 1) texts' =
      (scanFrom inSuite (line + 1) texts).map (ScanStep.shifted move closed)) :
    scanFrom inSuite (move line) (Text.readAgain closed line text :: texts') =
      (scanFrom inSuite line (text :: texts)).map (ScanStep.shifted move closed) := by
  rw [scanFrom, scanFrom, scanLine_shifted]
  cases scanLine inSuite line text with
  | none => exact later inSuite
  | some step => exact congrArg (step.shifted move closed :: ·) (later step.inSuite)

namespace Inserts

variable {inserted : Nat → List Filler} {closed : Option Nat} {line : Nat} {text longer : List Char}

theorem le_closed (inserts : Inserts inserted closed line text longer) : ∀ n ∈ closed, line ≤ n := by
  induction inserts with
  | line _ _ ih => exact fun n member => Nat.le_of_succ_le (ih n member)
  | closed => simp
  | _ => simp

-- The fillers above `line` begin at `start`, so the line itself comes to stand where it moves to.
theorem scanFrom (inserts : Inserts inserted closed line text longer) {inSuite : Bool} {start : Nat}
    (here : start + (inserted line).length = line + fillersAbove inserted line) :
    TestExplorer.scanFrom inSuite start (Text.lines longer) =
      (TestExplorer.scanFrom inSuite line (Text.lines text)).map
        (ScanStep.shifted (fun l => l + fillersAbove inserted l) closed) := by
  have cons := scanFrom_cons_shifted fun l => l + fillersAbove inserted l
  induction inserts generalizing inSuite start with
  | @line closed line first text longer one inserts ih =>
    have next : line + fillersAbove inserted line + 1 + (inserted (line + 1)).length =
        line + 1 + fillersAbove inserted (line + 1) := by
      rw [fillersAbove_succ]
      omega
    have open' : closed ≠ some line := fun same => absurd (inserts.le_closed line same) (by omega)
    have read : Text.readAgain closed line (Text.bare first) = Text.bare first := if_neg open'
    rw [Filler.scanFrom_block, here, Text.lines_append_cons one, Text.lines_append_cons one]
    conv_lhs => rw [← read]
    exact cons closed fun inSuite => ih next
  | ended stands => rw [stands.scanFrom]; rfl
  | unended one written _ =>
    rw [Filler.scanFrom_block, here, Text.lines_eq_self one written]
    exact cons none fun inSuite => rfl
  | returned one written stands =>
    rw [Filler.scanFrom_block, here, Text.lines_append_return one, Text.lines_eq_self one written]
    exact cons none fun inSuite => stands.scanFrom inSuite _
  | @closed line last behind one written stands =>
    have read : Text.readAgain (some line) line last = Text.bare last := if_pos rfl
    rw [Filler.scanFrom_block, here, Text.lines_append_cons one, Text.lines_eq_self one written,
      ← read]
    exact cons (some line) fun inSuite => stands.scanFrom inSuite _

theorem scan {source : String} (inserts : Inserts inserted closed 0 source.toList longer) :
    TestExplorer.scan (.ofList longer) =
      (TestExplorer.scan source).map
        (ScanStep.shifted (fun l => l + fillersAbove inserted l) closed) := by
  rw [TestExplorer.scan, String.toList_ofList]
  exact inserts.scanFrom (by simp [fillersAbove])

end Inserts

end TestExplorer
