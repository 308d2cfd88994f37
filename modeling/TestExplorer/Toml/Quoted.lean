import TestExplorer.Text.Number

set_option autoImplicit false

namespace TestExplorer.Toml

def isBlank (c : Char) : Bool :=
  c == ' ' || c == '\t'

def isPlain (c : Char) : Bool :=
  c == '\t' || (0x20 ≤ c.toNat && c.toNat ≤ 0x7E) || 0x80 ≤ c.toNat

def skipBlanks (text : List Char) : List Char :=
  text.dropWhile isBlank

def newline? : List Char → Option (List Char)
  | '\n' :: rest => some rest
  | '\r' :: '\n' :: rest => some rest
  | _ => none

def scalar? (n : Nat) : Option Char :=
  if n < 0xD800 ∨ (0xDFFF < n ∧ n < 0x110000) then some (Char.ofNat n) else none

def hexValue? (digits : List Char) : Option Nat :=
  digits.foldl (fun value c => do
    let value ← value
    let d ← Text.hexDigit? c
    some (value * 16 + d)) (some 0)

def simpleEscape? : Char → Option Char
  | 'b' => some '\x08'
  | 't' => some '\t'
  | 'n' => some '\n'
  | 'f' => some '\x0c'
  | 'r' => some '\r'
  | '"' => some '"'
  | '\\' => some '\\'
  | _ => none

abbrev Read := Option (List Char × List Char)

def prepend (c : Char) (read : Read) : Read :=
  read.map fun (body, rest) => (c :: body, rest)

def readBasic : List Char → Read
  | [] => none
  | '"' :: rest => some ([], rest)
  | '\\' :: 'u' :: a :: b :: c :: d :: rest => do
    let char ← scalar? (← hexValue? [a, b, c, d])
    prepend char (readBasic rest)
  | '\\' :: 'U' :: a :: b :: c :: d :: e :: f :: g :: h :: rest => do
    let char ← scalar? (← hexValue? [a, b, c, d, e, f, g, h])
    prepend char (readBasic rest)
  | '\\' :: c :: rest => do
    let char ← simpleEscape? c
    prepend char (readBasic rest)
  | c :: rest => if c ≠ '\\' ∧ isPlain c then prepend c (readBasic rest) else none

def readLiteral : List Char → Read
  | [] => none
  | '\'' :: rest => some ([], rest)
  | c :: rest => if isPlain c then prepend c (readLiteral rest) else none

-- Up to two quotes may stand right before the three that close a string.
def closing (quote : Char) (rest : List Char) : Read :=
  match rest with
  | c :: d :: more =>
    if c = quote ∧ d = quote then some ([quote, quote], more)
    else if c = quote then some ([quote], d :: more)
    else some ([], rest)
  | [c] => if c = quote then some ([quote], []) else some ([], rest)
  | [] => some ([], rest)

-- A backslash before the end of a line takes all blanks and line ends up to the next text.
def readBasicLines (skipping : Bool) : List Char → Read
  | [] => none
  | '"' :: '"' :: '"' :: rest => closing '"' rest
  | '\r' :: '\n' :: rest =>
    if skipping then readBasicLines true rest else prepend '\n' (readBasicLines false rest)
  | '\n' :: rest =>
    if skipping then readBasicLines true rest else prepend '\n' (readBasicLines false rest)
  | '\\' :: 'u' :: a :: b :: c :: d :: rest => do
    let char ← scalar? (← hexValue? [a, b, c, d])
    prepend char (readBasicLines false rest)
  | '\\' :: 'U' :: a :: b :: c :: d :: e :: f :: g :: h :: rest => do
    let char ← scalar? (← hexValue? [a, b, c, d, e, f, g, h])
    prepend char (readBasicLines false rest)
  | '\\' :: c :: rest =>
    if (newline? (skipBlanks (c :: rest))).isSome then readBasicLines true (c :: rest)
    else do
      let char ← simpleEscape? c
      prepend char (readBasicLines false rest)
  | c :: rest =>
    if skipping && isBlank c then readBasicLines true rest
    else if c ≠ '\\' ∧ isPlain c then prepend c (readBasicLines false rest) else none

def readLiteralLines : List Char → Read
  | [] => none
  | '\'' :: '\'' :: '\'' :: rest => closing '\'' rest
  | '\r' :: '\n' :: rest => prepend '\n' (readLiteralLines rest)
  | '\n' :: rest => prepend '\n' (readLiteralLines rest)
  | c :: rest => if isPlain c then prepend c (readLiteralLines rest) else none

-- A line end right after the opening marks is no part of the string.
def skipNewline (text : List Char) : List Char :=
  (newline? text).getD text

def readString : List Char → Read
  | '"' :: '"' :: '"' :: rest => readBasicLines false (skipNewline rest)
  | '"' :: rest => readBasic rest
  | '\'' :: '\'' :: '\'' :: rest => readLiteralLines (skipNewline rest)
  | '\'' :: rest => readLiteral rest
  | _ => none

def skipComment : List Char → List Char
  | '#' :: rest => rest.dropWhile isPlain
  | text => text

def skipVoid : Nat → List Char → List Char
  | 0, text => text
  | fuel + 1, text =>
    match newline? (skipComment (skipBlanks text)) with
    | some rest => skipVoid fuel rest
    | none => skipBlanks text

end TestExplorer.Toml
