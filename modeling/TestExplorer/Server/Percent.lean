import TestExplorer.Text.Number
import TestExplorer.Text.Utf8

set_option autoImplicit false

namespace TestExplorer.Percent

def ofAscii (text : String) : List UInt8 :=
  Text.toBytes text

-- Control characters, and all bytes beyond ASCII, are never written as they are.
def isControl (b : UInt8) : Bool :=
  b < 0x20 || 0x7F ≤ b

def inFragment (b : UInt8) : Bool :=
  isControl b || (ofAscii " \"<>\x60").contains b

def inPath (b : UInt8) : Bool :=
  inFragment b || (ofAscii "#?\x7b\x7d").contains b

-- One name of a path, in which separators are no separators.
def inSegment (b : UInt8) : Bool :=
  inPath b || (ofAscii "/%\\").contains b

def inQuery (b : UInt8) : Bool :=
  isControl b || (ofAscii " \"#<>").contains b

def inSpecialQuery (b : UInt8) : Bool :=
  inQuery b || (ofAscii "'").contains b

def hexChar (n : Nat) : Char :=
  ("0123456789ABCDEF".toList[n]?).getD '0'

def encodeByte (escaped : UInt8 → Bool) (b : UInt8) : List Char :=
  if escaped b then ['%', hexChar (b.toNat / 16), hexChar (b.toNat % 16)]
  else [Char.ofNat b.toNat]

def encode (escaped : UInt8 → Bool) (bytes : List UInt8) : List Char :=
  bytes.flatMap (encodeByte escaped)

def encodeText (escaped : UInt8 → Bool) (text : List Char) : List Char :=
  encode escaped (Text.toBytes (String.ofList text))

def byteOf? (a b : Char) : Option UInt8 :=
  match Text.hexDigit? a, Text.hexDigit? b with
  | some high, some low => some (UInt8.ofNat (high * 16 + low))
  | _, _ => none

-- A percent sign that no two digits follow stands for itself.
def decode : List Char → List UInt8
  | '%' :: a :: b :: rest =>
    match byteOf? a b with
    | some byte => byte :: decode rest
    | none => Text.toBytes "%" ++ decode (a :: b :: rest)
  | c :: rest => Text.toBytes (String.ofList [c]) ++ decode rest
  | [] => []

end TestExplorer.Percent
