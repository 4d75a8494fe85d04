import Mathlib

set_option relaxedAutoImplicit false
set_option autoImplicit false

/-!
# JSON values

The JSON values that requests, records and payloads carry, and the compact text they are
serialized to, which every byte budget of the program measures.

## Main definitions

* `Json` — a JSON value; a number is kept as its literal.
* `Json.compact` — the text without spaces, with the escapes of the serializer.
* `Json.byteLength` — the length of that text in UTF-8 bytes.

## Design

* A column that holds JSON text holds the value in this model: the text is the compact one of the
  serializer. What the parser of the same library makes of it when it is read is
  `Json.readBack`.
* An object keeps its fields in a list; a lookup takes the first field with the name.
-/

namespace Comsat

/-- A JSON value. -/
inductive Json where
  /-- `null`. -/
  | null
  /-- `true` and `false`. -/
  | bool (value : Bool)
  /-- A number, as its literal. -/
  | num (literal : String)
  /-- A string. -/
  | str (value : String)
  /-- An array. -/
  | arr (items : List Json)
  /-- An object, its fields in order. -/
  | obj (fields : List (String × Json))
deriving Inhabited

namespace Json

/-! ## Access -/

/-- Whether the value is an object. -/
def isObject : Json → Bool
  | obj _ => true
  | _ => false

/-- The field of an object with the given name. -/
def get? (value : Json) (name : String) : Option Json :=
  match value with
  | obj fields => (fields.find? fun field => field.1 = name).map Prod.snd
  | _ => none

/-- The text of a string value. -/
def asStr? : Json → Option String
  | str value => some value
  | _ => none

/-- An integer value. -/
def int (n : Int) : Json := num (toString n)

/-- A text, or `null` when there is none. -/
def optStr : Option String → Json
  | some value => str value
  | none => null

/-! ## Compact text -/

/-- The four hexadecimal digits of a control character. -/
def hexEscape (c : Char) : String :=
  String.ofList ['\\', 'u', '0', '0', Nat.digitChar (c.toNat / 16), Nat.digitChar (c.toNat % 16)]

/-- One character inside a JSON string. -/
def escapeChar (c : Char) : String :=
  if c = '"' then "\\\""
  else if c = '\\' then "\\\\"
  else if c.toNat = 0x08 then "\\b"
  else if c.toNat = 0x09 then "\\t"
  else if c.toNat = 0x0A then "\\n"
  else if c.toNat = 0x0C then "\\f"
  else if c.toNat = 0x0D then "\\r"
  else if c.toNat < 0x20 then hexEscape c
  else c.toString

/-- A string in quotes, with its escapes. -/
def quote (value : String) : String :=
  "\"" ++ String.join (value.toList.map escapeChar) ++ "\""

mutual

/-- The text of a value, without spaces. -/
def compact : Json → String
  | null => "null"
  | bool value => if value then "true" else "false"
  | num literal => literal
  | str value => quote value
  | arr items => "[" ++ String.intercalate "," (compactItems items) ++ "]"
  | obj fields => "\x7b" ++ String.intercalate "," (compactFields fields) ++ "\x7d"

/-- The texts of the items of an array. -/
def compactItems : List Json → List String
  | [] => []
  | item :: items => compact item :: compactItems items

/-- The texts of the fields of an object. -/
def compactFields : List (String × Json) → List String
  | [] => []
  | (name, value) :: fields => (quote name ++ ":" ++ compact value) :: compactFields fields

end

/-- The number of bytes of the compact text. -/
def byteLength (value : Json) : Nat := (compact value).utf8ByteSize

example : compact (obj [("a", arr [int 1, null]), ("b\n", str "x\"")]) =
    "\x7b\"a\":[1,null],\"b\\n\":\"x\\\"\"\x7d" := by decide

end Json

end Comsat
