import TestExplorer.Shell.Token

set_option autoImplicit false

namespace TestExplorer.Shell

inductive Operator where
  | or | and | bitOr | bitXor | bitAnd
  | eq | ne | le | ge | lt | gt
  | shiftLeft | shiftRight
  | add | sub | mul | div | mod
  deriving DecidableEq

inductive Sign where
  | not | complement | minus | plus
  deriving DecidableEq

inductive Expression where
  | number (n : Int)
  | variable (name : List Char)
  -- Assigns the value, behind `op` with the old one where there is an operator.
  | assign (name : List Char) (op : Option Operator) (value : Expression)
  | signed (sign : Sign) (e : Expression)
  | binary (op : Operator) (a b : Expression)
  | choose (condition yes no : Expression)

inductive ArithmeticError where
  | expecting (what : String)
  | divisionByZero
  | illegalNumber (text : List Char)

namespace Expression

def wrap (n : Int) : Int :=
  n.bmod (1 <<< 64)

def digitOf? (base : Nat) (c : Char) : Option Nat :=
  let n :=
    if isDigit c then some (c.toNat - '0'.toNat)
    else if 'a' ≤ c ∧ c ≤ 'f' then some (c.toNat - 'a'.toNat + 10)
    else if 'A' ≤ c ∧ c ≤ 'F' then some (c.toNat - 'A'.toNat + 10)
    else none
  n.filter (· < base)

def readDigits (base : Nat) : Nat → List Char → Nat × List Char
  | value, [] => (value, [])
  | value, c :: rest =>
    match digitOf? base c with
    | some d => readDigits base (value * base + d) rest
    | none => (value, c :: rest)

def readNumber (text : List Char) : Option (Nat × List Char) :=
  match text with
  | '0' :: x :: c :: rest =>
    if (x = 'x' ∨ x = 'X') ∧ (digitOf? 16 c).isSome then some (readDigits 16 0 (c :: rest))
    else some (readDigits 8 0 (x :: c :: rest))
  | '0' :: rest => some (readDigits 8 0 rest)
  | c :: rest => if isDigit c then some (readDigits 10 0 (c :: rest)) else none
  | [] => none

def isSpace (c : Char) : Bool :=
  isBlank c || c == '\n'

def skip (text : List Char) : List Char :=
  text.dropWhile isSpace

-- The operators from the loosest to the tightest, each with its sign. A longer sign stands before
-- one that it starts with.
def levels : List (List (String × Operator)) :=
  [[("||", .or)], [("&&", .and)], [("|", .bitOr)], [("^", .bitXor)], [("&", .bitAnd)],
    [("==", .eq), ("!=", .ne)], [("<=", .le), (">=", .ge), ("<", .lt), (">", .gt)],
    [("<<", .shiftLeft), (">>", .shiftRight)], [("+", .add), ("-", .sub)],
    [("*", .mul), ("/", .div), ("%", .mod)]]

def longSigns : List String :=
  ["||", "&&", "<<=", ">>=", "<<", ">>", "<=", ">=", "==", "!=", "++", "--", "+=", "-=", "*=", "/=",
    "%=", "&=", "|=", "^="]

def operatorAt (level : List (String × Operator)) (text : List Char) :
    Option (Operator × List Char) := do
  let text := skip text
  let sign := (longSigns.find? (·.toList.isPrefixOf text)).getD
    (String.ofList (text.take 1))
  let (_, op) ← level.find? (·.1 = sign)
  some (op, text.drop sign.length)

def assignments : List (String × Option Operator) :=
  [("<<=", some .shiftLeft), (">>=", some .shiftRight), ("+=", some .add), ("-=", some .sub),
    ("*=", some .mul), ("/=", some .div), ("%=", some .mod), ("&=", some .bitAnd),
    ("|=", some .bitOr), ("^=", some .bitXor), ("=", none)]

def assignmentAt (text : List Char) : Option (Option Operator × List Char) := do
  let text := skip text
  if "==".toList.isPrefixOf text then none
  else
    let (sign, op) ← assignments.find? (·.1.toList.isPrefixOf text)
    some (op, text.drop sign.length)

def signAt (c : Char) : Option Sign :=
  match c with
  | '!' => some .not
  | '~' => some .complement
  | '-' => some .minus
  | '+' => some .plus
  | _ => none

def splitVariable (text : List Char) : List Char × List Char :=
  match text with
  | c :: _ =>
    if isNameStart c then (text.takeWhile isNameChar, text.dropWhile isNameChar) else ([], text)
  | [] => ([], [])

abbrev Read := Except ArithmeticError (Expression × List Char)

mutual

def readChoice : Nat → List Char → Read
  | 0, _ => .error (.expecting "EOF")
  | fuel + 1, text => do
    let (condition, rest) ← readLevel fuel levels text
    match skip rest with
    | '?' :: rest => do
      let (yes, rest) ← readAssignment fuel rest
      match skip rest with
      | ':' :: rest => do
        let (no, rest) ← readChoice fuel rest
        pure (.choose condition yes no, rest)
      | _ => throw (.expecting "':'")
    | _ => pure (condition, rest)

def readAssignment : Nat → List Char → Read
  | 0, _ => .error (.expecting "EOF")
  | fuel + 1, text =>
    let (name, rest) := splitVariable (skip text)
    match name, assignmentAt rest with
    | _ :: _, some (op, rest) => do
      let (value, rest) ← readAssignment fuel rest
      pure (.assign name op value, rest)
    | _, _ => readChoice fuel text

def readLevel : Nat → List (List (String × Operator)) → List Char → Read
  | 0, _, _ => .error (.expecting "EOF")
  | fuel + 1, [], text => readSigned fuel text
  | fuel + 1, level :: tighter, text => do
    let (left, rest) ← readLevel fuel tighter text
    readMore fuel level tighter left rest

def readMore : Nat → List (String × Operator) → List (List (String × Operator)) → Expression →
    List Char → Read
  | 0, _, _, left, rest => .ok (left, rest)
  | fuel + 1, level, tighter, left, rest =>
    match operatorAt level rest with
    | some (op, rest) => do
      let (right, rest) ← readLevel fuel tighter rest
      readMore fuel level tighter (.binary op left right) rest
    | none => .ok (left, rest)

def readSigned : Nat → List Char → Read
  | 0, _ => .error (.expecting "EOF")
  | fuel + 1, text =>
    match skip text with
    | '(' :: rest => do
      let (e, rest) ← readAssignment fuel rest
      match skip rest with
      | ')' :: rest => pure (e, rest)
      | _ => throw (.expecting "')'")
    | c :: rest =>
      match signAt c with
      | some sign => do
        let (e, rest) ← readSigned fuel rest
        pure (.signed sign e, rest)
      | none =>
        match readNumber (c :: rest), splitVariable (c :: rest) with
        | some (n, rest), _ => .ok (.number n, rest)
        | none, (d :: name, rest) => .ok (.variable (d :: name), rest)
        | none, ([], _) => .error (.expecting "primary")
    | [] => .error (.expecting "primary")

end

def parse (text : List Char) : Except ArithmeticError Expression := do
  let (e, rest) ← readAssignment (20 * text.length + 20) text
  if (skip rest).isEmpty then pure e else throw (.expecting "EOF")

structure Values where
  assigned : List (List Char × Int) := []
  text : List Char → List Char

def numberOf (text : List Char) : Except ArithmeticError Int :=
  let digits := skip text
  let (negative, body) := match digits with
    | '-' :: rest => (true, rest)
    | '+' :: rest => (false, rest)
    | _ => (false, digits)
  if digits.isEmpty then .ok 0
  else match readNumber body with
    | some (n, rest) =>
      if (skip rest).isEmpty then .ok (if negative then -n else n) else .error (.illegalNumber text)
    | none => .error (.illegalNumber text)

def Values.get (v : Values) (name : List Char) : Except ArithmeticError Int :=
  match v.assigned.find? (·.1 = name) with
  | some (_, n) => .ok n
  | none => numberOf (v.text name)

def ofBool (b : Bool) : Int :=
  if b then 1 else 0

def bits (n : Int) : Nat :=
  (n.emod (1 <<< 64)).toNat

def combine (op : Operator) (a b : Int) : Except ArithmeticError Int :=
  match op with
  | .or => .ok (ofBool (a != 0 || b != 0))
  | .and => .ok (ofBool (a != 0 && b != 0))
  | .bitOr => .ok (wrap (bits a ||| bits b))
  | .bitXor => .ok (wrap (bits a ^^^ bits b))
  | .bitAnd => .ok (wrap (bits a &&& bits b))
  | .eq => .ok (ofBool (a == b))
  | .ne => .ok (ofBool (a != b))
  | .le => .ok (ofBool (a ≤ b))
  | .ge => .ok (ofBool (b ≤ a))
  | .lt => .ok (ofBool (a < b))
  | .gt => .ok (ofBool (b < a))
  | .shiftLeft => .ok (wrap (a <<< (bits b % 64)))
  | .shiftRight => .ok (a >>> (bits b % 64))
  | .add => .ok (wrap (a + b))
  | .sub => .ok (wrap (a - b))
  | .mul => .ok (wrap (a * b))
  | .div => if b = 0 then .error .divisionByZero else .ok (wrap (a.tdiv b))
  | .mod => if b = 0 then .error .divisionByZero else .ok (a.tmod b)

-- The value, and the values of variables behind it. A side that does not count is not looked at.
def eval (v : Values) : Expression → Except ArithmeticError (Int × Values)
  | .number n => .ok (wrap n, v)
  | .variable name => do pure (← v.get name, v)
  | .assign name op value => do
    let (n, v) ← value.eval v
    let n ← match op with
      | some op => combine op (← v.get name) n
      | none => pure n
    pure (n, { v with assigned := (name, n) :: v.assigned })
  | .signed sign e => do
    let (n, v) ← e.eval v
    let n := match sign with
      | .not => ofBool (n == 0)
      | .complement => wrap (-n - 1)
      | .minus => wrap (-n)
      | .plus => n
    pure (n, v)
  | .binary op a b => do
    let (n, v) ← a.eval v
    if op = .and ∧ n = 0 then pure (0, v)
    else if op = .or ∧ n ≠ 0 then pure (1, v)
    else
      let (m, v) ← b.eval v
      pure (← combine op n m, v)
  | .choose condition yes no => do
    let (n, v) ← condition.eval v
    if n ≠ 0 then yes.eval v else no.eval v

end Expression

def ArithmeticError.message (expression : List Char) : ArithmeticError → List Char
  | .expecting what =>
    "arithmetic expression: expecting ".toList ++ what.toList ++ ": \"".toList ++ expression ++ ['"']
  | .divisionByZero => "arithmetic expression: division by zero: \"".toList ++ expression ++ ['"']
  | .illegalNumber text => "Illegal number: ".toList ++ text

end TestExplorer.Shell
