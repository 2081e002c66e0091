import ComponentCatalog.NameMap
import ComponentCatalog.Xml.Character

/-!
# References

A reference stands between an ampersand and a semicolon.  It names a character by its number, one of
five characters by a name, or an entity that the document declares.
-/

set_option autoImplicit false

namespace ComponentCatalog.Xml

/-- The texts of entities by name. -/
abbrev Entities := NameMap (List Char)

/-- What a reference stands for. -/
inductive Referent where
  | character (c : Char)
  /-- An entity, with its text. -/
  | entity (text : List Char)

namespace Reference

/-- The value of a digit. -/
def digit? (c : Char) : Option Nat :=
  if c.isDigit then some (c.toNat - 48)
  else if 'a' ≤ c ∧ c ≤ 'z' then some (c.toNat - 87)
  else if 'A' ≤ c ∧ c ≤ 'Z' then some (c.toNat - 55)
  else none

/-- The number that digits write, one digit or more. -/
def number? (base : Nat) (digits : List Char) : Option Nat :=
  if digits.isEmpty then none
  else digits.foldlM (fun n c ↦ do
    let d ← digit? c
    if d < base then some (n * base + d) else none) 0

/-- The number that digits with or without a plus sign write. -/
def signed? (base : Nat) : List Char → Option Nat
  | '+' :: digits => number? base digits
  | digits => number? base digits

/-- The character with a number, given in base ten, or in base sixteen after an `x`. -/
def ofNumber? (version : Version) (text : List Char) : Option Char := do
  let n ← match text with
    | 'x' :: digits => signed? 16 digits
    | digits => signed? 10 digits
  if h : n.isValidChar then
    let c := Char.ofNatAux n h
    if version.allows c then some c else none
  else none

/-- The characters with names. -/
def predefined : List (List Char × Char) := [
  (['l', 't'], '<'), (['g', 't'], '>'), (['a', 'm', 'p'], '&'), (['a', 'p', 'o', 's'], '\''),
  (['q', 'u', 'o', 't'], '"')]

/-- What a name stands for. -/
def resolve? (version : Version) (entities : Entities) (name : List Char) :
    Option Referent :=
  match name with
  | '#' :: number => (ofNumber? version number).map .character
  | name =>
    match predefined.lookup name with
    | some c => some (.character c)
    | none => (entities.get? (String.ofList name)).map .entity

/-- The name of a reference with one more character, last character first. -/
def add? (reversed : List Char) (c : Char) : Option (List Char) :=
  if (if reversed.isEmpty then isNameStart c || c == '#' else isNameChar c) then
    some (c :: reversed)
  else none

end Reference

end ComponentCatalog.Xml
