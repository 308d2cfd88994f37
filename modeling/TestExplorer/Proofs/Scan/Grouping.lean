import TestExplorer.Document

set_option autoImplicit false

namespace TestExplorer.Document

def warningsOf (items : List ScanItem) : List Warning :=
  items.filterMap fun
    | .warning w => some w
    | .event _ => none

-- The tests up to the end of the span that is open before the items.
def spanTests : List ScanItem → List TestMark
  | [] => []
  | .event (.testCase name line) :: rest => ⟨name, line⟩ :: spanTests rest
  | .event _ :: _ => []
  | .warning w :: rest => if w.marker = .suiteBegin then [] else spanTests rest

def unitsOf : List ScanItem → List UnitMark
  | [] => []
  | .event (.suiteBegin name line) :: rest => ⟨name, line, spanTests rest⟩ :: unitsOf rest
  | _ :: rest => unitsOf rest

namespace Draft

variable {d : Draft}

theorem warnings_foldl_take (items : List ScanItem) :
    (items.foldl take d).warnings = d.warnings ++ warningsOf items := by
  induction items generalizing d with
  | nil => simp [warningsOf]
  | cons item rest ih =>
    rw [List.foldl_cons, ih]
    cases item with
    | event e =>
      cases e with
      | testCase name line => cases current : d.current <;> simp [take, current, warningsOf]
      | _ => rfl
    | warning w => simp [take, warningsOf]

-- Only the last unit can be open: the next tests join it, and what they do not join comes behind it.
inductive Gathers (d : Draft) (items : List ScanItem) (units : List UnitMark) : Prop
  | closed (current : d.current = none) (parts : units = d.units ++ unitsOf items)
  | opened {before : List UnitMark} {last : UnitMark} (stands : d.units = before ++ [last])
      (current : d.current = some before.length)
      (parts : units =
        before ++ { last with tests := last.tests ++ spanTests items } :: unitsOf items)

theorem Gathers.take {item : ScanItem} {rest : List ScanItem} {units : List UnitMark}
    (gathers : d.Gathers (item :: rest) units) : (d.take item).Gathers rest units := by
  cases gathers with
  | closed current parts =>
    cases item with
    | event e =>
      cases e with
      | suiteBegin name line => exact .opened rfl rfl (by simp [parts, unitsOf])
      | suiteEnd line => exact .closed rfl parts
      | testCase name line =>
        have kept : d.take (.event (.testCase name line)) = d := by simp [Draft.take, current]
        rw [kept]
        exact .closed current parts
    | warning w => exact .closed (by simp [Draft.take, current]) parts
  | @opened before last stands current parts =>
    cases item with
    | event e =>
      cases e with
      | suiteBegin name line =>
        exact .opened rfl rfl (by simp [parts, stands, spanTests, unitsOf])
      | suiteEnd line => exact .closed rfl (by simp [parts, stands, Draft.take, spanTests, unitsOf])
      | testCase name line =>
        let declared : UnitMark := { last with tests := last.tests ++ [⟨name, line⟩] }
        have stands' : (d.take (.event (.testCase name line))).units = before ++ [declared] := by
          simp [Draft.take, current, stands, List.modify_eq_take_drop, declared]
        exact .opened stands' (by simp [Draft.take, current])
          (by simp [parts, spanTests, unitsOf, declared])
    | warning w =>
      by_cases opens : w.marker = .suiteBegin
      · refine .closed (by simp [Draft.take, opens]) ?_
        simp [parts, stands, Draft.take, spanTests, unitsOf, opens]
      · refine .opened stands (by simp [Draft.take, opens, current]) ?_
        simp [parts, spanTests, unitsOf, opens]

theorem Gathers.foldl_take {items : List ScanItem} {units : List UnitMark}
    (gathers : d.Gathers items units) : (items.foldl Draft.take d).units = units := by
  induction items generalizing d with
  | nil =>
    cases gathers with
    | closed current parts => simp [parts, unitsOf]
    | opened stands current parts => simp [parts, stands, spanTests, unitsOf]
  | cons item rest ih => exact ih gathers.take

end Draft

theorem scan_eq (path : Path) (source : String) :
    scan path source =
      { path
        units := unitsOf ((TestExplorer.scan source).map (·.item))
        warnings := warningsOf ((TestExplorer.scan source).map (·.item)) } := by
  let items := (TestExplorer.scan source).map (·.item)
  have units : (items.foldl Draft.take {}).units = unitsOf items :=
    Draft.Gathers.foldl_take (.closed rfl rfl)
  rw [scan, units, Draft.warnings_foldl_take]
  rfl

theorem units_scan (path : Path) (source : String) :
    (scan path source).units = unitsOf ((TestExplorer.scan source).map (·.item)) := by
  rw [scan_eq]

theorem warnings_scan (path : Path) (source : String) :
    (scan path source).warnings = warningsOf ((TestExplorer.scan source).map (·.item)) := by
  rw [scan_eq]

end TestExplorer.Document
