import ComponentCatalog.NameMap
import ComponentCatalog.Yaml.Node

/-!
# Drafts of YAML nodes

A node can have an anchor, a name under which it is used again, and an alias stands for such a node.
What is read first is a `Draft`, in which aliases stand as they are written; once all of a document
was read, `Anchors.resolve?` puts nodes in their place.

Anchors are **numbered**.  The number of an anchor is how many names were used for anchors before
it, and from there on its name stands for that number.  Of the nodes with one number **the last in
the document counts**, for aliases before it as well.  So if a name is used for a second time, the
next new name gets the same number, and takes the node's place.

No node can stand inside itself: a document in which one does is malformed.
-/

set_option autoImplicit false

namespace ComponentCatalog.Yaml

/-- A node as it is written. -/
inductive Draft where
  | scalar (text : String) (style : ScalarStyle) (tag? : Option String)
  | sequence (items : List Draft)
  | mapping (entries : List (Draft × Draft))
  /-- An alias, which stands for the node with a number. -/
  | alias (number : Nat)
deriving Inhabited

namespace Draft

/-- Nothing: what stands where a value is left out. -/
def empty : Draft := .scalar "" .plain none

mutual

/-- The node that a draft describes, with `nodes` in place of aliases. -/
def resolve? (nodes : List (Nat × Node)) : Draft → Option Node
  | .scalar text style tag? => some (.scalar text style tag?)
  | .sequence items => (resolveItems? nodes items).map .sequence
  | .mapping entries => (resolveEntries? nodes entries).map .mapping
  | .alias number => nodes.lookup number

/-- The nodes that the items of a sequence describe. -/
def resolveItems? (nodes : List (Nat × Node)) : List Draft → Option (List Node)
  | [] => some []
  | item :: items => do
    pure ((← resolve? nodes item) :: (← resolveItems? nodes items))

/-- The nodes that the entries of a mapping describe. -/
def resolveEntries? (nodes : List (Nat × Node)) :
    List (Draft × Draft) → Option (List (Node × Node))
  | [] => some []
  | (key, value) :: entries => do
    pure ((← resolve? nodes key, ← resolve? nodes value) :: (← resolveEntries? nodes entries))

end

end Draft

/-- The anchors of a document as far as it was read. -/
structure Anchors where
  /-- The numbers that names stand for. -/
  numbers : NameMap Nat := .empty
  /-- The numbers of all anchors, last one first. -/
  given : List Nat := []
  /-- The drafts that were read, each with the number of anchors before its own. -/
  drafts : List (Nat × Draft) := []

namespace Anchors

/-- Gives a number to an anchor. -/
def give (a : Anchors) (name : String) : Anchors :=
  let number := a.numbers.size
  { a with numbers := a.numbers.insert name number, given := number :: a.given }

/-- Adds the draft with an anchor before which there are `place` others. -/
def fill (a : Anchors) (place : Nat) (draft : Draft) : Anchors :=
  { a with drafts := (place, draft) :: a.drafts }

/-- An alias for a name; none if no anchor before it has the name. -/
def alias? (a : Anchors) (name : String) : Option Draft := (a.numbers.get? name).map .alias

/-- The last draft with a number. -/
def draft? (a : Anchors) (number : Nat) : Option Draft := do
  let later ← a.given.idxOf? number
  a.drafts.lookup (a.given.length - 1 - later)

/-- The nodes with anchors, by number: those whose aliases can be replaced in so many rounds, the
last of which puts the nodes of the round before in the place of aliases.  Every round adds a node
if any can be added, so as many rounds as there are anchors are enough. -/
def nodes (a : Anchors) : Nat → List (Nat × Node)
  | 0 => []
  | rounds + 1 =>
    let inner := a.nodes rounds
    a.given.eraseDups.filterMap fun number ↦ do
      pure (number, ← (← a.draft? number).resolve? inner)

/-- The node that a draft describes, once all anchors are known. -/
def resolve? (a : Anchors) (draft : Draft) : Option Node :=
  draft.resolve? (a.nodes a.given.length)

end Anchors

end ComponentCatalog.Yaml
