import Mathlib.Algebra.Group.Nat.Defs
import TestExplorer.Proofs.Scan.Items
import TestExplorer.Proofs.Scan.Lines
import TestExplorer.Proofs.Tree.Growth
import TestExplorer.Server.Diagnostics

set_option autoImplicit false

namespace TestExplorer

namespace Text

-- The units of a character: the character itself or, beyond the first plane, two surrogates.
def charUtf16 (c : Char) : List UInt16 :=
  if c.toNat < 0x10000 then [c.toNat.toUInt16]
  else
    let rest := c.toNat - 0x10000
    [(0xD800 + rest / 0x400).toUInt16, (0xDC00 + rest % 0x400).toUInt16]

def utf16 (text : List Char) : List UInt16 :=
  text.flatMap charUtf16

theorem length_charUtf16 (c : Char) : (charUtf16 c).length = if c.toNat < 0x10000 then 1 else 2 := by
  unfold charUtf16
  split <;> rfl

theorem length_utf16 (text : String) : (utf16 text.toList).length = units16 text := by
  simp [utf16, units16, List.length_flatMap, length_charUtf16, List.sum_eq_foldr]

/-- Each line and each column of the text has a number of 32 bits. -/
structure Addressable (text : List Char) : Prop where
  few : (lines text).length < 2 ^ 32
  short : ∀ line ∈ lines text, (utf16 line).length < 2 ^ 32

theorem Addressable.line_lt {text line : List Char} (fits : Addressable text) {number : Nat}
    (stands : LineAt text number line) : number < 2 ^ 32 := by
  have found := (getElem?_lines_iff text number line).2 stands
  exact (List.getElem?_eq_some_iff.1 found).1.trans fits.few

theorem Addressable.column_lt {text line : List Char} (fits : Addressable text) {number : Nat}
    (stands : LineAt text number line) : (utf16 line).length < 2 ^ 32 :=
  fits.short line (List.mem_of_getElem? ((getElem?_lines_iff text number line).2 stands))

end Text

theorem clamp32_eq_self {n : Nat} (fits : n < 2 ^ 32) : clamp32 n = n :=
  Nat.min_eq_left (by omega)

theorem Warning.range_diagnostic (w : Warning) :
    let most := 2 ^ 32 - 1
    w.diagnostic.range =
      ⟨⟨min w.line most, 0⟩, ⟨min w.line most, min (Text.utf16 w.text.toList).length most⟩⟩ := by
  rw [Text.length_utf16]
  rfl

theorem Warning.range_diagnostic_of_lt {w : Warning} (line : w.line < 2 ^ 32)
    (columns : (Text.utf16 w.text.toList).length < 2 ^ 32) :
    w.diagnostic.range = ⟨⟨w.line, 0⟩, ⟨w.line, (Text.utf16 w.text.toList).length⟩⟩ := by
  rw [range_diagnostic, Nat.min_eq_left (by omega), Nat.min_eq_left (by omega)]

theorem text_of_shows {unitOpen : Prop} {line : Nat} {text : List Char} {w : Warning}
    (shows : Shows unitOpen line text (.warning w)) :
    w.line = line ∧ w.text = String.ofList text := by
  cases shows with
  | opening _ named => cases named <;> exact ⟨rfl, rfl⟩
  | test _ _ _ _ named => cases named <;> exact ⟨rfl, rfl⟩

theorem lineAt_of_reported {source : String} {step : ScanStep} {w : Warning}
    (member : step ∈ scan source) (reported : step.item = .warning w) :
    Text.LineAt source.toList w.line w.text.toList := by
  have closed : false = true ↔ UnitOpen [] := by simp [UnitOpen, not_openAfter_nil]
  have item : ScanItem.warning w ∈ itemsFrom false 0 (Text.lines source.toList) :=
    List.mem_map.2 ⟨step, member, reported⟩
  obtain ⟨earlier, text, later, parts, shows⟩ := (mem_itemsFrom_iff [] _ closed _).1 item
  obtain ⟨line, same⟩ := text_of_shows shows
  rw [← Text.getElem?_lines_iff, parts, line, same]
  simp

namespace Document

theorem mem_warnings_scan (path : Path) (source : String) (w : Warning) :
    w ∈ (scan path source).warnings ↔ ∃ step ∈ TestExplorer.scan source, step.item = .warning w := by
  rw [warnings_scan, mem_warningsOf]
  exact List.mem_map

theorem warnings_scan_ordered (path : Path) (source : String) :
    ((scan path source).warnings.map (·.line)).Pairwise (· < ·) := by
  have items : (((TestExplorer.scan source).map (·.item)).map (·.line)).Pairwise (· < ·) :=
    List.Pairwise.sublist (lines_itemsFrom false 0 _) List.pairwise_lt_range'
  rw [warnings_scan]
  exact items.sublist (lines_warningsOf _)

/-- The diagnostics of a document against its source. The lines with malformed markers are those that
the scan reports, and each has one diagnostic, in the order of the lines. It reaches from the start
of the line to its end, the ending left out. -/
theorem diagnostics_cover_lines (path : Path) (source : String) (t : Tree) :
    let shown := ((scan path source).insertInto t).found.diagnostics
    let most := 2 ^ 32 - 1
    ∃ malformed : List (Nat × List Char),
      (∀ number line, (number, line) ∈ malformed ↔
        Text.LineAt source.toList number line ∧
          ∃ step ∈ TestExplorer.scan source, ∃ w, step.item = .warning w ∧ w.line = number) ∧
      (malformed.map (·.1)).Pairwise (· < ·) ∧
      (shown.map (·.range) = malformed.map fun (number, line) =>
        ⟨⟨min number most, 0⟩, ⟨min number most, min (Text.utf16 line).length most⟩⟩) ∧
      (Text.Addressable source.toList →
        (shown.map (·.range) = malformed.map fun (number, line) =>
          ⟨⟨number, 0⟩, ⟨number, (Text.utf16 line).length⟩⟩) ∧
        (shown.map (·.range.start.line)).Pairwise (· < ·)) := by
  intro shown most
  let reported := (scan path source).warnings
  have found : ((scan path source).insertInto t).found.warnings = reported := by
    rw [((scan path source).insertInto_takes t).found]
  have diagnostics : shown = reported.map Warning.diagnostic :=
    congrArg (List.map Warning.diagnostic) found
  have ordered : (reported.map (·.line)).Pairwise (· < ·) := warnings_scan_ordered path source
  have place (w : Warning) (member : w ∈ reported) :
      Text.LineAt source.toList w.line w.text.toList := by
    obtain ⟨step, scanned, item⟩ := (mem_warnings_scan path source w).1 member
    exact lineAt_of_reported scanned item
  refine ⟨reported.map fun w => (w.line, w.text.toList), fun number line => ⟨?there, ?reported⟩,
    ?ordered, ?clamped, fun fits => ⟨?exact, ?increasing⟩⟩
  case there =>
    intro member
    obtain ⟨w, held, same⟩ := List.mem_map.1 member
    obtain ⟨rfl, rfl⟩ := Prod.mk.inj same
    obtain ⟨step, scanned, item⟩ := (mem_warnings_scan path source w).1 held
    exact ⟨place w held, step, scanned, w, item, rfl⟩
  case reported =>
    rintro ⟨stands, step, scanned, w, item, rfl⟩
    have held : w ∈ reported := (mem_warnings_scan path source w).2 ⟨step, scanned, item⟩
    exact List.mem_map.2 ⟨w, held, congrArg (w.line, ·) ((place w held).unique stands)⟩
  case ordered =>
    rw [List.map_map]
    exact ordered
  case clamped =>
    rw [diagnostics, List.map_map, List.map_map]
    exact List.map_congr_left fun w _ => w.range_diagnostic
  case exact =>
    rw [diagnostics, List.map_map, List.map_map]
    exact List.map_congr_left fun w held =>
      Warning.range_diagnostic_of_lt (fits.line_lt (place w held)) (fits.column_lt (place w held))
  case increasing =>
    have starts : shown.map (·.range.start.line) = reported.map (·.line) := by
      rw [diagnostics, List.map_map]
      refine List.map_congr_left fun w held => ?_
      exact clamp32_eq_self (fits.line_lt (place w held))
    exact starts ▸ ordered

theorem diagnostics_cover_lines_beyond_first_plane :
    let source := ":- begin_tests(u).\r\ntest(x).\r\n  test('😀é\r\n:- begin_tests().\n"
    let shown := ((scan (Path.ofString "/a.pl") source).insertInto {}).found.diagnostics
    Text.Addressable source.toList ∧
      shown.map (·.range) = [⟨⟨2, 0⟩, ⟨2, 11⟩⟩, ⟨⟨3, 0⟩, ⟨3, 17⟩⟩] ∧
      (shown.map (·.range.start.line)).Pairwise (· < ·) ∧
      ∃ line, Text.LineAt source.toList 2 line ∧ (Text.utf16 line).length = 11 := by
  intro source shown
  have fits : Text.Addressable source.toList := ⟨by decide +kernel, by decide +kernel⟩
  have ranges : shown.map (·.range) = [⟨⟨2, 0⟩, ⟨2, 11⟩⟩, ⟨⟨3, 0⟩, ⟨3, 17⟩⟩] := by decide +kernel
  obtain ⟨malformed, reported, -, -, inside⟩ :=
    diagnostics_cover_lines (Path.ofString "/a.pl") source {}
  obtain ⟨exact, increasing⟩ := inside fits
  have first : ⟨⟨2, 0⟩, ⟨2, 11⟩⟩ ∈ shown.map (·.range) := ranges ▸ List.mem_cons_self
  rw [exact] at first
  obtain ⟨⟨number, line⟩, member, same⟩ := List.mem_map.1 first
  simp only [Range.mk.injEq, Position.mk.injEq] at same
  obtain ⟨⟨rfl, -⟩, -, columns⟩ := same
  exact ⟨fits, ranges, increasing, line, ((reported 2 line).1 member).1, columns⟩

end Document

end TestExplorer
