import TestExplorer.Json
import TestExplorer.Server.Addresses

set_option autoImplicit false

namespace TestExplorer.Server

inductive Shape where
  | any
  | text
  | flag
  | number
  | uri
  | whole (low high : Int)
  | word (words : List String)
  | optional (s : Shape)
  | list (s : Shape)
  | record (fields : List (String × Shape))
  | merged (fields : List (String × Shape))
  | either (a b : Shape)

namespace Shape

def isOptional : Shape → Bool
  | optional _ => true
  | _ => false

variable {U : Type} [Addresses U]

mutual

def fits : Shape → Json → Bool
  | any, _ => true
  | text, .string _ => true
  | flag, .bool _ => true
  | number, .number _ => true
  | number, .real _ => true
  | uri, .string s => (Addresses.parse? s).isSome
  | whole low high, .number n => decide (low ≤ n) && decide (n ≤ high)
  | word words, .string s => words.contains s
  | optional _, .null => true
  | optional s, j => s.fits j
  | list s, .array items => items.all s.fits
  | record fields, .array items => fitInOrder fields items
  | record fields, .object members => fitByName fields members
  | merged fields, .object members => fitByName fields members
  | either a b, j => a.fits j || b.fits j
  | _, _ => false

def fitByName : List (String × Shape) → List (String × Json) → Bool
  | [], _ => true
  | (name, s) :: rest, members =>
    (match members.find? (·.1 = name) with
      | some (_, j) => s.fits j
      | none => s.isOptional) && fitByName rest members

def fitInOrder : List (String × Shape) → List Json → Bool
  | [], items => items.isEmpty
  | (_, s) :: rest, j :: items => s.fits j && fitInOrder rest items
  | _ :: _, [] => false

end

def int32 : Shape := whole (-2147483648) 2147483647
def uint32 : Shape := whole 0 4294967295

def position : Shape := record [("line", uint32), ("character", uint32)]
def range : Shape := record [("start", position), ("end", position)]
def document : Shape := record [("uri", uri)]
def location : Shape := record [("uri", uri), ("range", range)]
def object : Shape := merged []

def capabilities : Shape :=
  merged [
    ("workspace", optional object), ("textDocument", optional object),
    ("notebookDocument", optional object), ("window", optional object),
    ("general", optional object), ("experimental", optional any)]

end Shape

end TestExplorer.Server
