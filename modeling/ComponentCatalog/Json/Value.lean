/-!
# JSON values

The values of a JSON text.  The fields of an object stay in the order of the text, repeated names
included, so that a reader can refuse repetitions and a printer can choose the order.
-/

set_option autoImplicit false

namespace ComponentCatalog

/-- A JSON value. -/
inductive Json where
  | null
  | bool (value : Bool)
  /-- A number, by its literal. -/
  | number (literal : String)
  | string (text : String)
  | array (items : List Json)
  | object (fields : List (String × Json))
  /-- A string, or an object with a field name, in which an escape stands for half of a surrogate
  pair.  It is well formed but has no text: a reader can skip it and nothing else. -/
  | unreadable
deriving Inhabited

namespace Json

/-- The number `n`. -/
def nat (n : Nat) : Json := .number (toString n)

/-- A text, or null. -/
def text? : Option String → Json
  | some s => .string s
  | none => .null

end Json

end ComponentCatalog
