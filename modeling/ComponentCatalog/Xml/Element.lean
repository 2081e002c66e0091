import ComponentCatalog.NameMap
import ComponentCatalog.Text.Blank

/-!
# Elements

The part of an XML document that metadata is written in: elements with attributes, text and child
elements, all by their local names.
-/

set_option autoImplicit false

namespace ComponentCatalog.Xml

/-- An element. -/
structure Element where
  name : String
  attributes : NameMap String := .empty
  /-- The character data directly inside the element, put together. -/
  text : String := ""
  children : List Element := []
deriving Inhabited

namespace Element

/-- The value of an attribute. -/
def attribute? (e : Element) (name : String) : Option String := e.attributes.get? name

/-- The text of the element without the blanks at its ends. -/
def trimmedText (e : Element) : String := Text.trim e.text

/-! ## Comparing elements -/

mutual

/-- Decides whether two elements are equal. -/
def decEq : (a b : Element) → Decidable (a = b)
  | ⟨name, attributes, text, children⟩, ⟨name', attributes', text', children'⟩ =>
    if h : name = name' ∧ attributes = attributes' ∧ text = text' then
      match decEqList children children' with
      | isTrue hc => isTrue (by obtain ⟨rfl, rfl, rfl⟩ := h; rw [hc])
      | isFalse hc => isFalse fun he ↦ by injection he; contradiction
    else isFalse fun he ↦ h (by injection he with h1 h2 h3; exact ⟨h1, h2, h3⟩)

/-- Decides whether two lists of elements are equal. -/
def decEqList : (as bs : List Element) → Decidable (as = bs)
  | [], [] => isTrue rfl
  | [], _ :: _ => isFalse (by simp)
  | _ :: _, [] => isFalse (by simp)
  | a :: as, b :: bs =>
    match decEq a b with
    | isFalse h => isFalse fun he ↦ by injection he; contradiction
    | isTrue h =>
      match decEqList as bs with
      | isTrue hs => isTrue (by rw [h, hs])
      | isFalse hs => isFalse fun he ↦ by injection he; contradiction

end

instance : DecidableEq Element := decEq

end Element

end ComponentCatalog.Xml
