import TestExplorer.Text.Number

set_option autoImplicit false

namespace TestExplorer

structure Duration where
  nanos : Nat
  deriving DecidableEq

namespace Duration

def ofSeconds (n : Nat) : Duration :=
  ⟨n * 1000000000⟩

def ofMillis (n : Nat) : Duration :=
  ⟨n * 1000000⟩

def dropZerosEnd (digits : List Char) : List Char :=
  (digits.reverse.dropWhile (· == '0')).reverse

def inUnit (nanos places : Nat) (unit : String) : String :=
  let whole := Text.decimal (nanos / Nat.pow 10 places)
  match dropZerosEnd (Text.padded places (nanos % Nat.pow 10 places)) with
  | [] => whole ++ unit
  | fraction => whole ++ "." ++ String.ofList fraction ++ unit

def render (d : Duration) : String :=
  if 1000000000 ≤ d.nanos then inUnit d.nanos 9 "s"
  else if 1000000 ≤ d.nanos then inUnit d.nanos 6 "ms"
  else if 1000 ≤ d.nanos then inUnit d.nanos 3 "µs"
  else inUnit d.nanos 0 "ns"

end Duration

end TestExplorer
