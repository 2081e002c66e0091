import ComponentCatalog.Description.Basic

/-!
# Caches

A cache keeps descriptions of classes for a session.  Those that are marked as `cached` stay when
the session ends.  Contextual descriptions never enter it.

Descriptions are **shared**: whoever is given a kept description is given the very same one.  The
number of the resolution that made it tells shared descriptions apart.
-/

set_option autoImplicit false

namespace ComponentCatalog

/-- A description with the number of the resolution that made it. -/
structure SharedDescription where
  description : Description
  resolution : Nat
deriving DecidableEq

/-- Descriptions by the names of their classes, and how often they were asked for. -/
structure Cache where
  entries : NameMap SharedDescription := .empty
  hits : UInt64 := 0
  misses : UInt64 := 0

namespace Cache

/-- The cache without entries. -/
def empty : Cache := {}

/-- Looks up a class and counts the look-up. -/
def get (c : Cache) (className : String) : Option SharedDescription × Cache :=
  match c.entries.get? className with
  | some entry => (some entry, { c with hits := c.hits + 1 })
  | none => (none, { c with misses := c.misses + 1 })

/-- Keeps the description of a class unless there is one already, and gives the one that is kept.  A
contextual description is given back and not kept. -/
def insert (c : Cache) (s : SharedDescription) : SharedDescription × Cache :=
  match s.description.key with
  | .contextual .. => (s, c)
  | .pure className =>
    match c.entries.get? className with
    | some entry => (entry, c)
    | none => (s, { c with entries := c.entries.insert className s })

/-- Whether there is a description of a class. -/
def contains (c : Cache) (className : String) : Bool := c.entries.contains className

/-- The number of descriptions. -/
def size (c : Cache) : Nat := c.entries.size

/-- Ends the session: drops all descriptions that are not marked to stay. -/
def endSession (c : Cache) : Cache :=
  { c with entries := c.entries.filter fun _ s ↦ s.description.cached }

/-- Drops all descriptions. -/
def clear (c : Cache) : Cache := { c with entries := .empty }

end Cache

end ComponentCatalog
