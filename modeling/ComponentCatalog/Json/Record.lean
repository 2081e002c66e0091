import ComponentCatalog.Json.Value

/-!
# Records in JSON

A record is written as an object, its fields in any order among fields that nobody asks for, or as
an array of its fields in their declared order, from which fields at the end may be missing.  A
field that is asked for must not be written twice.

`Json.record?` finds the fields of a record; the functions after it read a field of each type, and
give nothing where the value has another type.
-/

set_option autoImplicit false

namespace ComponentCatalog.Json

universe u

/-- The first field with a name. -/
def field? (fields : List (String × Json)) (name : String) : Option Json :=
  (fields.find? (·.1 == name)).map (·.2)

/-- The fields of a record with the given field names. -/
def record? (names : List String) : Json → Option (List (String × Json))
  | .object fields =>
    if names.all fun name ↦ (fields.filter (·.1 == name)).length ≤ 1 then some fields else none
  | .array items => if items.length ≤ names.length then some (names.zip items) else none
  | _ => none

/-- A text. -/
def asText? : Json → Option String
  | .string s => some s
  | _ => none

/-- A truth value. -/
def asBool? : Json → Option Bool
  | .bool b => some b
  | _ => none

/-- A text, or null for none. -/
def asOptionalText? : Json → Option (Option String)
  | .null => some none
  | .string s => some (some s)
  | _ => none

/-- An array of values that can all be read. -/
def asList? {α : Type u} (read : Json → Option α) : Json → Option (List α)
  | .array items => items.mapM read
  | _ => none

/-- A field that has to be there. -/
def required {α : Type u} (fields : List (String × Json)) (name : String)
    (read : Json → Option α) : Option α :=
  (field? fields name).bind read

/-- A field with a value for when it is missing. -/
def withDefault {α : Type u} (fields : List (String × Json)) (name : String) (default : α)
    (read : Json → Option α) : Option α :=
  match field? fields name with
  | some value => read value
  | none => some default

end ComponentCatalog.Json
