import TestExplorer.Path

set_option autoImplicit false

namespace TestExplorer.Server

class Addresses (U : outParam Type) where
  parse? : String → Option U
  render : U → String
  toPath? : U → Option Path
  ofPath? : Path → Option U

/-- Only absolute paths have addresses, and the address of one names it again, though perhaps in
another spelling. -/
structure Addresses.Lawful (U : Type) [Addresses U] : Prop where
  absolute : ∀ (u : U) p, toPath? u = some p → p.isAbsolute
  rooted : ∀ p (u : U), ofPath? p = some u → p.isAbsolute
  returns : ∀ p : Path, p.isAbsolute → ∃ (u : U) (q : Path),
    ofPath? p = some u ∧ toPath? u = some q ∧ q.Same p

end TestExplorer.Server
