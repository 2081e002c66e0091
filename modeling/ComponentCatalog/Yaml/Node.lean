/-!
# YAML nodes

The values of a YAML document.  A scalar is a text with the style in which it is written, because
only a plain text can stand for a truth value, a number or nothing.
-/

set_option autoImplicit false

namespace ComponentCatalog.Yaml

/-- How a scalar is written. -/
inductive ScalarStyle where
  | plain
  | singleQuoted
  | doubleQuoted
  /-- On lines of its own, with their breaks. -/
  | literal
  /-- On lines of its own, which are joined. -/
  | folded
deriving DecidableEq, Repr

/-- A value of a document. -/
inductive Node where
  | scalar (text : String) (style : ScalarStyle) (tag? : Option String)
  | sequence (items : List Node)
  | mapping (entries : List (Node × Node))
deriving Inhabited

namespace Node

/-! ## Comparing nodes -/

mutual

/-- Decides whether two nodes are equal. -/
def decEq : (a b : Node) → Decidable (a = b)
  | .scalar text style tag?, .scalar text' style' tag'? =>
    if h : text = text' ∧ style = style' ∧ tag? = tag'? then
      isTrue (by obtain ⟨rfl, rfl, rfl⟩ := h; rfl)
    else isFalse fun he ↦ h (by injection he with h1 h2 h3; exact ⟨h1, h2, h3⟩)
  | .sequence items, .sequence items' =>
    match decEqItems items items' with
    | isTrue h => isTrue (by rw [h])
    | isFalse h => isFalse fun he ↦ by injection he; contradiction
  | .mapping entries, .mapping entries' =>
    match decEqEntries entries entries' with
    | isTrue h => isTrue (by rw [h])
    | isFalse h => isFalse fun he ↦ by injection he; contradiction
  | .scalar .., .sequence _ => isFalse (by simp)
  | .scalar .., .mapping _ => isFalse (by simp)
  | .sequence _, .scalar .. => isFalse (by simp)
  | .sequence _, .mapping _ => isFalse (by simp)
  | .mapping _, .scalar .. => isFalse (by simp)
  | .mapping _, .sequence _ => isFalse (by simp)

/-- Decides whether two lists of items are equal. -/
def decEqItems : (as bs : List Node) → Decidable (as = bs)
  | [], [] => isTrue rfl
  | [], _ :: _ => isFalse (by simp)
  | _ :: _, [] => isFalse (by simp)
  | a :: as, b :: bs =>
    match decEq a b with
    | isFalse h => isFalse fun he ↦ by injection he; contradiction
    | isTrue h =>
      match decEqItems as bs with
      | isTrue hs => isTrue (by rw [h, hs])
      | isFalse hs => isFalse fun he ↦ by injection he; contradiction

/-- Decides whether two lists of entries are equal. -/
def decEqEntries : (as bs : List (Node × Node)) → Decidable (as = bs)
  | [], [] => isTrue rfl
  | [], _ :: _ => isFalse (by simp)
  | _ :: _, [] => isFalse (by simp)
  | (key, value) :: as, (key', value') :: bs =>
    match decEq key key', decEq value value' with
    | isFalse h, _ => isFalse fun he ↦ by simp_all
    | _, isFalse h => isFalse fun he ↦ by simp_all
    | isTrue hk, isTrue hv =>
      match decEqEntries as bs with
      | isTrue hs => isTrue (by rw [hk, hv, hs])
      | isFalse hs => isFalse fun he ↦ by injection he; contradiction

end

instance : DecidableEq Node := decEq

end Node

end ComponentCatalog.Yaml
