import Remux.Json.Model.Value

/-!
# The compact text of a value

What `serde_json::to_vec` and `Value::to_string` print. How a double is
printed is left to a parameter, `floatText`.
-/

namespace Remux

/-- `{byte:02x}`. -/
def hexByte (byte : UInt8) : List Char :=
  [Nat.digitChar (byte.toNat / 16), Nat.digitChar (byte.toNat % 16)]

/-- A character inside a string literal. Only the quote, the backslash
and the control characters below the space are escaped. -/
def escapeChar (c : Char) : List Char :=
  if c = '"' then ['\\', '"']
  else if c = '\\' then ['\\', '\\']
  else if c.toNat = 8 then ['\\', 'b']
  else if c.toNat = 9 then ['\\', 't']
  else if c.toNat = 10 then ['\\', 'n']
  else if c.toNat = 12 then ['\\', 'f']
  else if c.toNat = 13 then ['\\', 'r']
  else if c.toNat < 32 then ['\\', 'u', '0', '0'] ++ hexByte c.toNat.toUInt8
  else [c]

/-- A string literal. -/
def quote (s : String) : List Char := '"' :: s.toList.flatMap escapeChar ++ ['"']

section

variable (floatText : Double → List Char)

/-- A number. -/
def Number.text : Number → List Char
  | posInt n => n.toNat.repr.toList
  | negInt n => n.val.toInt.repr.toList
  | float double => floatText double

namespace Value

mutual

/-- The compact text of a value. -/
def text : Value → List Char
  | null => "null".toList
  | bool b => (if b then "true" else "false").toList
  | number n => n.text floatText
  | string s => quote s
  | array values => '[' :: (textValues values ++ [']'])
  | object entries => '\x7b' :: (textEntries entries ++ ['\x7d'])

/-- The elements of an array, with commas between them. -/
def textValues : List Value → List Char
  | [] => []
  | [v] => text v
  | v :: vs => text v ++ ',' :: textValues vs

/-- The entries of an object, with commas between them. -/
def textEntries : List (String × Value) → List Char
  | [] => []
  | [(key, value)] => quote key ++ ':' :: text value
  | (key, value) :: es => quote key ++ ':' :: (text value ++ ',' :: textEntries es)

end

end Value

/-- `serde_json::to_vec`: the UTF-8 bytes of the compact text. -/
def toVec (value : Value) : List UInt8 := (value.text floatText).flatMap String.utf8EncodeChar

end

example : (Value.text (fun _ => [])
    (.object [("a\n", .array [.bool true, .number (.posInt 12)])])) =
    "\x7b\"a\\n\":[true,12]\x7d".toList := by decide

end Remux
