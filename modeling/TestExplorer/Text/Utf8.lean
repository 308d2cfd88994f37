set_option autoImplicit false

namespace TestExplorer.Text

def replacement : Char := '\uFFFD'

-- A character whose bytes have not all been read: `left` more are due, the next of them between
-- `low` and `high`.
structure Unfinished where
  value : Nat
  left : Nat
  low : UInt8 := 0x80
  high : UInt8 := 0xBF

def Unfinished.ofLead? (b : UInt8) : Option Unfinished :=
  if 0xC2 ≤ b && b ≤ 0xDF then some { value := b.toNat - 0xC0, left := 1 }
  else if b == 0xE0 then some { value := 0, left := 2, low := 0xA0 }
  else if b == 0xED then some { value := 0xD, left := 2, high := 0x9F }
  else if 0xE1 ≤ b && b ≤ 0xEF then some { value := b.toNat - 0xE0, left := 2 }
  else if b == 0xF0 then some { value := 0, left := 3, low := 0x90 }
  else if b == 0xF4 then some { value := 4, left := 3, high := 0x8F }
  else if 0xF1 ≤ b && b ≤ 0xF3 then some { value := b.toNat - 0xF0, left := 3 }
  else none

def readLead (b : UInt8) : List Char × Option Unfinished :=
  if b < 0x80 then ([Char.ofNat b.toNat], none)
  else match Unfinished.ofLead? b with
    | some open' => ([], some open')
    | none => ([replacement], none)

-- Each longest start of a character that breaks off counts as one replacement character.
def decodeFrom : Option Unfinished → List UInt8 → List Char
  | none, [] => []
  | some _, [] => [replacement]
  | none, b :: rest =>
    let (shown, state) := readLead b
    shown ++ decodeFrom state rest
  | some part, b :: rest =>
    if part.low ≤ b && b ≤ part.high then
      let value := part.value * 64 + (b.toNat - 0x80)
      if part.left ≤ 1 then Char.ofNat value :: decodeFrom none rest
      else decodeFrom (some { value, left := part.left - 1 }) rest
    else
      let (shown, state) := readLead b
      replacement :: (shown ++ decodeFrom state rest)

def ofBytes? (bytes : List UInt8) : Option String :=
  String.fromUTF8? ⟨bytes.toArray⟩

def ofBytes (bytes : List UInt8) : String :=
  match ofBytes? bytes with
  | some text => text
  | none => String.ofList (decodeFrom none bytes)

def toBytes (text : String) : List UInt8 :=
  text.toUTF8.data.toList

theorem ofBytes?_toBytes (text : String) : ofBytes? (toBytes text) = some text := by
  have same : (⟨(toBytes text).toArray⟩ : ByteArray) = text.toByteArray := by
    simp [toBytes, String.toUTF8_eq_toByteArray]
  unfold ofBytes? String.fromUTF8?
  rw [same, dif_pos text.isValidUTF8]
  rfl

theorem ofBytes?_eq_some_iff (bytes : List UInt8) (text : String) :
    ofBytes? bytes = some text ↔ toBytes text = bytes := by
  constructor
  case mp =>
    intro read
    unfold ofBytes? String.fromUTF8? at read
    split at read
    next =>
      obtain rfl := Option.some.inj read
      rfl
    next => contradiction
  case mpr =>
    rintro rfl
    exact ofBytes?_toBytes text

end TestExplorer.Text
