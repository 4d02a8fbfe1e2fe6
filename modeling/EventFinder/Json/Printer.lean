import EventFinder.Json.Value
import EventFinder.Number.Layout

/-!
# JSON text

How values are written as JSON: without blanks, members in their order, characters as they are but for
quotes, backslashes and controls, which are escaped.
-/

set_option autoImplicit false

namespace EventFinder

namespace Json

/-- A hexadecimal digit. -/
def hexDigit (n : Nat) : Char := (Nat.toDigits 16 n).headD '0'

/-- A character as it stands in a string. -/
def escapeChar (c : Char) : List Char :=
  if c = '"' then ['\\', '"']
  else if c = '\\' then ['\\', '\\']
  else if c = '\n' then ['\\', 'n']
  else if c = '\r' then ['\\', 'r']
  else if c = '\t' then ['\\', 't']
  else if c = '\x08' then ['\\', 'b']
  else if c = '\x0c' then ['\\', 'f']
  else if c.toNat < 32 then ['\\', 'u', '0', '0', hexDigit (c.toNat / 16), hexDigit (c.toNat % 16)]
  else [c]

/-- A text as a JSON string. -/
def quote (s : String) : List Char := '"' :: s.toList.flatMap escapeChar ++ ['"']

/-- An array of items that are written already. -/
def bracketed (items : List (List Char)) : List Char :=
  '[' :: [','].intercalate items ++ [']']

/-- An object of members whose values are written already. -/
def braced (members : List (String × List Char)) : List Char :=
  '\x7b' :: [','].intercalate (members.map fun m => quote m.1 ++ ':' :: m.2) ++ ['\x7d']

/-- A number as it stands in JSON. -/
def numberChars : JsonNumber → List Char
  | .integer n => decimalInt n
  | .real x => (x.jsonText .wide).toList

mutual

/-- The characters of a value. -/
def chars : Json → List Char
  | null => "null".toList
  | bool b => (if b then "true" else "false").toList
  | number n => numberChars n
  | string s => quote s
  | array items => bracketed (itemChars items)
  | object members => braced (memberChars members)

/-- The characters of items. -/
def itemChars : List Json → List (List Char)
  | [] => []
  | item :: rest => item.chars :: itemChars rest

/-- The names and characters of members. -/
def memberChars : List (String × Json) → List (String × List Char)
  | [] => []
  | (name, value) :: rest => (name, value.chars) :: memberChars rest

end

/-- The text of a value. -/
def text (value : Json) : String := String.ofList value.chars

example : (object [("a\n", array [null, bool true, string "\"é\x01"]), ("b", number (.integer (-5)))]).text =
    "\x7b\"a\\n\":[null,true,\"\\\"é\\u0001\"],\"b\":-5\x7d" := by decide +kernel

end Json

end EventFinder
