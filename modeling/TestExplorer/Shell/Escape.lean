import TestExplorer.Shell.Token

set_option autoImplicit false

namespace TestExplorer.Shell

def octalDigit? (c : Char) : Option Nat :=
  if '0' ≤ c ∧ c ≤ '7' then some (c.toNat - '0'.toNat) else none

def readOctal (most value : Nat) (text : List Char) : Nat × List Char :=
  match most, text with
  | most + 1, c :: rest =>
    match octalDigit? c with
    | some d => readOctal most (value * 8 + d) rest
    | none => (value, text)
  | _, _ => (value, text)

def simpleEscape? : Char → Option Char
  | 'a' => some '\x07'
  | 'b' => some '\x08'
  | 'e' => some '\x1b'
  | 'f' => some '\x0c'
  | 'n' => some '\n'
  | 'r' => some '\r'
  | 't' => some '\t'
  | 'v' => some '\x0b'
  | '\\' => some '\\'
  | _ => none

def byteChar (n : Nat) : Char :=
  Char.ofNat (n % 256)

-- The character of an escape behind its backslash, and the text after it. A backslash that opens no
-- escape stands for itself.
def formatEscape (text : List Char) : Char × List Char :=
  match text with
  | c :: rest =>
    match octalDigit? c, simpleEscape? c with
    | some _, _ =>
      let (value, tail) := readOctal 3 0 text
      (byteChar value, tail)
    | none, some d => (d, rest)
    | none, none => ('\\', text)
  | [] => ('\\', [])

def putEscapes : Nat → List Char → List Char × Bool
  | 0, _ => ([], false)
  | _, [] => ([], false)
  | _ + 1, '\\' :: 'c' :: _ => ([], true)
  | fuel + 1, '\\' :: '0' :: rest =>
    let (value, rest) := readOctal 3 0 rest
    let (more, stop) := putEscapes fuel rest
    (byteChar value :: more, stop)
  | fuel + 1, '\\' :: rest =>
    let (c, rest) := formatEscape rest
    let (more, stop) := putEscapes fuel rest
    (c :: more, stop)
  | fuel + 1, c :: rest =>
    let (more, stop) := putEscapes fuel rest
    (c :: more, stop)

def escaped (text : List Char) : List Char × Bool :=
  putEscapes text.length text

end TestExplorer.Shell
