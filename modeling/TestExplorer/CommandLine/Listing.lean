import TestExplorer.Controller.Discovery

set_option autoImplicit false

namespace TestExplorer

def plural (n : Nat) : String :=
  if n = 1 then "" else "s"

def Suite.listing (base : Path) (s : Suite) : String :=
  s!"{s.name} ({(s.path.relativeTo base).display}:{s.line + 1})\n" ++
    String.join (s.tests.map fun t => s!"  {t.name} (line {t.line + 1})\n")

-- Suites and tests with paths relative to `base`; shown lines count from one.
def Tree.listing (t : Tree) (base : Path) : String :=
  if t.suites.isEmpty then "No tests collected\n"
  else
    String.join (t.suites.map (Suite.listing base)) ++
      s!"\n{t.testCount} test{plural t.testCount} in {t.suiteCount} suite{plural t.suiteCount}\n"

def Summary.warningListing (s : Summary) (base : Path) : String :=
  String.join (s.warnings.map fun (path, warning) =>
    s!"warning: {(path.relativeTo base).display}: {warning.message}\n")

end TestExplorer
