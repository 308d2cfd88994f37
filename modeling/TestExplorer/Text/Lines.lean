set_option autoImplicit false

namespace TestExplorer.Text

-- A carriage return right before a line feed belongs to the ending, any other to its line. A final line
-- feed opens no further line.
def lines : List Char → List (List Char)
  | [] => []
  | '\n' :: rest => [] :: lines rest
  | '\r' :: '\n' :: rest => [] :: lines rest
  | c :: rest =>
    match lines rest with
    | [] => [[c]]
    | line :: more => (c :: line) :: more

def withReturns : List Char → List Char
  | [] => []
  | c :: rest => if c = '\n' then '\r' :: '\n' :: withReturns rest else c :: withReturns rest

theorem lines_cons {c : Char} {rest : List Char} (feed : c ≠ '\n')
    (ending : c = '\r' → rest.head? ≠ some '\n') :
    lines (c :: rest) = match lines rest with
      | [] => [[c]]
      | line :: more => (c :: line) :: more := by
  rw [lines]
  · exact feed
  · rintro tail rfl rfl
    exact ending rfl rfl

end TestExplorer.Text
