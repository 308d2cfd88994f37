set_option autoImplicit false

namespace TestExplorer

inductive TableOrigin where
  -- Written in braces; nothing may be added.
  | inline
  -- Opened by a header of its own.
  | header
  -- On the way of a header.
  | implied
  -- On the way of a dotted key.
  | dotted
  deriving DecidableEq

inductive Toml where
  | string (text : String)
  | integer (value : Int)
  | float
  | boolean (value : Bool)
  | datetime
  | array (items : List Toml)
  | table (origin : TableOrigin) (members : List (String × Toml))
  -- The tables of one array header, the first of them first.
  | tables (items : List Toml)
  deriving Inhabited

namespace Toml

abbrev Members := List (String × Toml)

def find? (key : String) (members : Members) : Option Toml :=
  (members.find? (·.1 = key)).map (·.2)

class Parser where
  parse? : String → Option Members

end Toml

end TestExplorer
