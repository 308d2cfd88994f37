import TestExplorer.Server.Shape

set_option autoImplicit false

namespace TestExplorer.Server

variable {U : Type} [Addresses U]

-- The fields of a record by their names, in which the last `spare` of an array may be missing.
def fields? (names : List String) (spare : Nat) : Json → Option (String → Option Json)
  | .object members => some fun name => (members.find? (·.1 = name)).map (·.2)
  | .array items =>
    if items.length ≤ names.length ∧ names.length ≤ items.length + spare then
      some fun name => ((names.zip items).find? (·.1 = name)).map (·.2)
    else none
  | _ => none

namespace Params

def text? : Json → Option String
  | .string s => some s
  | _ => none

def version? : Json → Option Int
  | .number n => if Shape.int32.fits (.number n) then some n else none
  | _ => none

def uri? (j : Json) : Option U :=
  (text? j).bind Addresses.parse?

def list? {α : Type} (read : Json → Option α) : Json → Option (List α)
  | .array items => items.mapM read
  | _ => none

def optional? {α : Type} (read : Json → Option α) : Option Json → Option (Option α)
  | none => some none
  | some .null => some none
  | some j => (read j).map some

def fits? (s : Shape) (field : Option Json) : Option Unit :=
  if (field.map s.fits).getD s.isOptional then some () else none

end Params

open Params

structure DocumentText (U : Type) where
  uri : U
  version : Int
  texts : List String

def DocumentText.ofOpened? (j : Json) : Option (DocumentText U) := do
  let fields ← fields? ["textDocument"] 0 j
  let item ← (fields "textDocument").bind
    (fields? ["uri", "languageId", "version", "text"] 0)
  let uri ← (item "uri").bind uri?
  let _ ← (item "languageId").bind text?
  let version ← (item "version").bind version?
  let text ← (item "text").bind text?
  some { uri, version, texts := [text] }

def changeText? (j : Json) : Option String := do
  let change ← fields? ["range", "rangeLength", "text"] 0 j
  fits? (.optional Shape.range) (change "range")
  fits? (.optional Shape.uint32) (change "rangeLength")
  (change "text").bind text?

def DocumentText.ofChanged? (j : Json) : Option (DocumentText U) := do
  let fields ← fields? ["textDocument", "contentChanges"] 0 j
  let item ← (fields "textDocument").bind (fields? ["uri", "version"] 0)
  let uri ← (item "uri").bind uri?
  let version ← (item "version").bind version?
  let texts ← (fields "contentChanges").bind (list? changeText?)
  some { uri, version, texts }

def identifier? (field : Option Json) : Option U := do
  let item ← field.bind (fields? ["uri"] 0)
  (item "uri").bind uri?

def saved? (j : Json) : Option U := do
  let fields ← fields? ["textDocument", "text"] 0 j
  let uri ← identifier? (fields "textDocument")
  let _ ← optional? text? (fields "text")
  some uri

def closed? (j : Json) : Option U := do
  let fields ← fields? ["textDocument"] 0 j
  identifier? (fields "textDocument")

def watched? (j : Json) : Option (List U) := do
  let fields ← fields? ["changes"] 0 j
  let event? (j : Json) : Option U := do
    let event ← fields? ["uri", "type"] 0 j
    let uri ← (event "uri").bind uri?
    let _ ← (event "type").bind version?
    some uri
  (fields "changes").bind (list? event?)

structure Opening (U : Type) where
  folders : List U
  root : Option U

def openingNames : List String :=
  ["processId", "rootPath", "rootUri", "initializationOptions", "capabilities", "trace",
    "workspaceFolders", "clientInfo", "locale"]

def Opening.ofParams? (j : Json) : Option (Opening U) := do
  let fields ← fields? openingNames 0 j
  fits? (.optional Shape.uint32) (fields "processId")
  fits? (.optional .text) (fields "rootPath")
  let root ← optional? uri? (fields "rootUri")
  fits? Shape.capabilities (fields "capabilities")
  fits? (.optional (.word ["off", "messages", "verbose"])) (fields "trace")
  fits? (.optional (.record [("name", .text), ("version", .optional .text)])) (fields "clientInfo")
  fits? (.optional .text) (fields "locale")
  let folder? (j : Json) : Option U := do
    let folder ← fields? ["uri", "name"] 0 j
    let _ ← (folder "name").bind text?
    (folder "uri").bind uri?
  let folders ← optional? (list? folder?) (fields "workspaceFolders")
  some { folders := folders.getD [], root }

def resolveId? (j : Json) : Option (Option String) := do
  let fields ← fields? ["id"] 1 j
  optional? text? (fields "id")

def include? (j : Json) : Option (Option (List String)) := do
  let fields ← fields? ["include"] 1 j
  optional? (list? text?) (fields "include")

end TestExplorer.Server
