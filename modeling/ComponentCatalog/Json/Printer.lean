import ComponentCatalog.Json.Value

/-!
# Printing JSON

`Json.pretty` writes a value over several lines: two blanks for each level, one item or field a
line, and an empty array or object on one line.  In strings the quote, the backslash and the
control characters are escaped and nothing else.
-/

set_option autoImplicit false

namespace ComponentCatalog.Json

/-- A digit of a hexadecimal number. -/
def hexDigit (n : Nat) : Char := Char.ofNat (if n < 10 then 48 + n else 87 + n)

/-- A character as it is written inside a string. -/
def escape (c : Char) : List Char :=
  if c = '"' then ['\\', '"']
  else if c = '\\' then ['\\', '\\']
  else if c = '\n' then ['\\', 'n']
  else if c = '\r' then ['\\', 'r']
  else if c = '\t' then ['\\', 't']
  else if c.toNat = 8 then ['\\', 'b']
  else if c.toNat = 12 then ['\\', 'f']
  else if c.toNat < 32 then
    ['\\', 'u', '0', '0', hexDigit (c.toNat / 16), hexDigit (c.toNat % 16)]
  else [c]

/-- A string literal. -/
def quote (s : String) : String :=
  String.ofList ('"' :: s.toList.flatMap escape ++ ['"'])

/-- The line break before an item at `depth` levels. -/
def lineBreak (depth : Nat) : String := "\n" ++ String.ofList (List.replicate (2 * depth) ' ')

mutual

/-- The value, its lines below the first at `depth` levels. -/
def prettyAt (depth : Nat) : Json → String
  | .null => "null"
  | .bool true => "true"
  | .bool false => "false"
  | .number literal => literal
  | .string s => quote s
  | .array [] => "[]"
  | .array (item :: items) =>
    "[" ++ lineBreak (depth + 1) ++ prettyAt (depth + 1) item ++ prettyItems (depth + 1) items ++
      lineBreak depth ++ "]"
  | .object [] => "\x7b\x7d"
  | .object ((name, value) :: fields) =>
    "\x7b" ++ lineBreak (depth + 1) ++ quote name ++ ": " ++ prettyAt (depth + 1) value ++
      prettyFields (depth + 1) fields ++ lineBreak depth ++ "\x7d"
  | .unreadable => "null"

/-- Further items of an array. -/
def prettyItems (depth : Nat) : List Json → String
  | [] => ""
  | item :: items =>
    "," ++ lineBreak depth ++ prettyAt depth item ++ prettyItems depth items

/-- Further fields of an object. -/
def prettyFields (depth : Nat) : List (String × Json) → String
  | [] => ""
  | (name, value) :: fields =>
    "," ++ lineBreak depth ++ quote name ++ ": " ++ prettyAt depth value ++
      prettyFields depth fields

end

/-- The value over several lines. -/
def pretty (value : Json) : String := prettyAt 0 value

end ComponentCatalog.Json
