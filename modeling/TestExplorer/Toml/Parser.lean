import TestExplorer.Toml.Quoted
import TestExplorer.Toml.Scalar

set_option autoImplicit false

namespace TestExplorer.Toml

def replace (key : String) (value : Toml) (members : Members) : Members :=
  members.map fun (known, old) => if known = key then (known, value) else (known, old)

def remove (key : String) (members : Members) : Members :=
  members.filter (·.1 ≠ key)

-- The members with `value` at the end of a dotted path. On the way, tables opened by a header of
-- their own and plain values refuse; the last table must come from dotted keys when the path has more
-- than one key, and must not otherwise.
def insertDotted (origin : TableOrigin) (first : Bool) (value : Toml) :
    List String → Members → Option Members
  | [], _ => none
  | [key], members =>
    if (origin == .dotted) == first || (find? key members).isSome then none
    else some (members ++ [(key, value)])
  | key :: path, members =>
    match find? key members with
    | none => do
      let inner ← insertDotted .dotted false value path []
      some (members ++ [(key, .table .dotted inner)])
    | some (.table .dotted inner) => do
      let inner ← insertDotted .dotted false value path inner
      some (replace key (.table .dotted inner) members)
    | some (.table .implied inner) => do
      let inner ← insertDotted .implied false value path inner
      some (replace key (.table .implied inner) members)
    | some (.tables items) =>
      match items.getLast? with
      | some (.table origin inner) => do
        let inner ← insertDotted origin false value path inner
        some (replace key (.tables (items.dropLast ++ [.table origin inner])) members)
      | _ => none
    | some _ => none

-- The members with those of the table at the end of a header's path changed by `change`. Missing
-- tables on the way are implied; of an array of tables the last one counts.
def descend (change : Members → Option Members) : List String → Members → Option Members
  | [], members => change members
  | key :: path, members =>
    match find? key members with
    | none => do
      let inner ← descend change path []
      some (members ++ [(key, .table .implied inner)])
    | some (.table .inline _) => none
    | some (.table origin inner) => do
      let inner ← descend change path inner
      some (replace key (.table origin inner) members)
    | some (.tables items) =>
      match items.getLast? with
      | some (.table origin inner) => do
        let inner ← descend change path inner
        some (replace key (.tables (items.dropLast ++ [.table origin inner])) members)
      | _ => none
    | some _ => none

def depthLimit : Nat := 80

def isBareKey (c : Char) : Bool :=
  isDigit c || ('a' ≤ c && c ≤ 'z') || ('A' ≤ c && c ≤ 'Z') || c == '_' || c == '-'

def readSimpleKey (text : List Char) : Option (String × List Char) :=
  match text with
  | '"' :: rest => (readBasic rest).map fun (key, rest) => (String.ofList key, rest)
  | '\'' :: rest => (readLiteral rest).map fun (key, rest) => (String.ofList key, rest)
  | _ =>
    match text.takeWhile isBareKey with
    | [] => none
    | key => some (String.ofList key, text.dropWhile isBareKey)

def readKeyFrom : Nat → List Char → Option (List String × List Char)
  | 0, _ => none
  | fuel + 1, text => do
    let (key, rest) ← readSimpleKey (skipBlanks text)
    match skipBlanks rest with
    | '.' :: rest => do
      let (path, rest) ← readKeyFrom fuel rest
      some (key :: path, rest)
    | rest => some ([key], rest)

def readKey (text : List Char) : Option (List String × List Char) := do
  let (path, rest) ← readKeyFrom (text.length + 1) text
  if path.length < depthLimit then some (path, rest) else none

mutual

-- Each step takes a character at least, so `fuel` can be the length of the text.
def readValue : Nat → Nat → List Char → Option (Toml × List Char)
  | 0, _, _ => none
  | fuel + 1, depth, text =>
    match text with
    | '"' :: _ => (readString text).map fun (body, rest) => (.string (String.ofList body), rest)
    | '\'' :: _ => (readString text).map fun (body, rest) => (.string (String.ofList body), rest)
    | '[' :: rest =>
      if depth + 1 < depthLimit then
        (readItems fuel (depth + 1) rest).map fun (items, rest) => (.array items, rest)
      else none
    | '\x7b' :: rest =>
      if depth + 1 < depthLimit then
        match skipBlanks rest with
        | '\x7d' :: rest => some (.table .inline [], rest)
        | rest =>
          (readMembers fuel (depth + 1) [] rest).map fun (members, rest) =>
            (.table .inline members, rest)
      else none
    | _ => readScalar text

def readItems : Nat → Nat → List Char → Option (List Toml × List Char)
  | 0, _, _ => none
  | fuel + 1, depth, text =>
    match skipVoid text.length text with
    | ']' :: rest => some ([], rest)
    | text => do
      let (item, rest) ← readValue fuel depth text
      match skipVoid rest.length rest with
      | ',' :: rest => do
        let (items, rest) ← readItems fuel depth rest
        some (item :: items, rest)
      | ']' :: rest => some ([item], rest)
      | _ => none

def readMembers : Nat → Nat → Members → List Char → Option (Members × List Char)
  | 0, _, _, _ => none
  | fuel + 1, depth, members, text => do
    let (path, rest) ← readKey text
    let (value, rest) ← readValue fuel depth (skipBlanks (← afterChar '=' rest))
    let members ← insertDotted .inline true value path members
    match skipBlanks rest with
    | ',' :: rest => readMembers fuel depth members rest
    | '\x7d' :: rest => some (members, rest)
    | _ => none

end

inductive Statement where
  | assignment (path : List String) (value : Toml)
  | table (path : List String)
  | arrayTable (path : List String)

def endLine (text : List Char) : Option (List Char) :=
  match skipComment (skipBlanks text) with
  | [] => some []
  | rest => newline? rest

def readStatement (text : List Char) : Option (Statement × List Char) :=
  match text with
  | '[' :: '[' :: rest => do
    let (path, rest) ← readKey rest
    some (.arrayTable path, ← afterChar ']' (← afterChar ']' rest))
  | '[' :: rest => do
    let (path, rest) ← readKey rest
    some (.table path, ← afterChar ']' rest)
  | _ => do
    let (path, rest) ← readKey text
    let (value, rest) ← readValue text.length 0 (skipBlanks (← afterChar '=' rest))
    some (.assignment path value, rest)

def readStatements : Nat → List Char → Option (List Statement)
  | 0, _ => some []
  | fuel + 1, text =>
    match skipVoid text.length text with
    | [] => some []
    | '#' :: rest => if (skipComment ('#' :: rest)).isEmpty then some [] else none
    | text => do
      let (statement, rest) ← readStatement text
      let rest ← endLine rest
      let more ← readStatements fuel rest
      some (statement :: more)

structure Building where
  root : Members := []
  current : Members := []
  path : List String := []
  isArray : Bool := false

namespace Building

def finish (b : Building) : Option Members :=
  match b.path.getLast? with
  | none => some b.current
  | some key =>
    descend (fun members =>
      if b.isArray then
        match find? key members with
        | none => some (members ++ [(key, .tables [.table .header b.current])])
        | some (.tables items) =>
          some (replace key (.tables (items ++ [.table .header b.current])) members)
        | some _ => none
      else
        match find? key members with
        | none => some (members ++ [(key, .table .header b.current)])
        | some _ => none) b.path.dropLast b.root

-- A table that headers below it have implied may get a header of its own, once.
def openTable (b : Building) (path : List String) : Option Building := do
  let root ← b.finish
  let key ← path.getLast?
  let implied := reach path root
  match implied with
  | none => do
    let root ← descend some path.dropLast root
    some { root, current := [], path, isArray := false }
  | some (.table .implied members) => do
    let root ← descend (fun ms => some (remove key ms)) path.dropLast root
    some { root, current := members, path, isArray := false }
  | some _ => none
where
  reach : List String → Members → Option Toml
    | [], _ => none
    | [key], members => find? key members
    | key :: path, members =>
      match find? key members with
      | some (.table _ inner) => reach path inner
      | some (.tables items) =>
        match items.getLast? with
        | some (.table _ inner) => reach path inner
        | _ => none
      | _ => none

def openArrayTable (b : Building) (path : List String) : Option Building := do
  let root ← b.finish
  let key ← path.getLast?
  let root ← descend (fun members =>
    match find? key members with
    | none => some members
    | some (.tables _) => some members
    | some _ => none) path.dropLast root
  some { root, current := [], path, isArray := true }

def take (b : Building) : Statement → Option Building
  | .assignment path value => do
    some { b with current := ← insertDotted .header true value path b.current }
  | .table path => b.openTable path
  | .arrayTable path => b.openArrayTable path

def takeAll (b : Building) : List Statement → Option Building
  | [] => some b
  | s :: rest => do (← b.take s).takeAll rest

end Building

def parse? (text : String) : Option Members := do
  let chars := match text.toList with
    | '\uFEFF' :: rest => rest
    | chars => chars
  let statements ← readStatements (chars.length + 1) chars
  (← Building.takeAll {} statements).finish

instance : Parser where
  parse? := parse?

end TestExplorer.Toml
