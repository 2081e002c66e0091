import ComponentCatalog.ClassModel.ClassPath
import ComponentCatalog.Resource.Bundle

/-!
# Icons of classes

The icon of a class is the one beside the class itself or else beside the nearest class that it
comes from: its interfaces with all that they come from, in order, and then its superclass.  A name
that is not on the class path can have an icon, but leads no further.

The search does not keep in mind where it was.  So if it comes back to a class while it is still
looking for the icon of that very class, it does the same once more, and so for ever.
-/

set_option autoImplicit false

namespace ComponentCatalog

/-- The icon of the first of the names that has one, where what a name comes from is searched before
the next name; `way` names the classes from `start` that these names are searched for.  A name on
the way has no icon, and to search for it again never ends. -/
def ClassPath.searchIcon (cp : ClassPath) (l : Locator) (start : String) (way : List String) :
    List String → Except Failure (Option Icon)
  | [] => .ok none
  | name :: rest =>
    match l.findIcon name "" with
    | some icon => .ok (some icon)
    | none =>
      if _ : name ∈ way then .error (.endlessSearch start)
      else
        match _ : cp.find? name with
        | none => searchIcon cp l start way rest
        | some c => do
          match ← searchIcon cp l start (name :: way) (c.interfaces ++ c.superclass?.toList) with
          | some icon => pure (some icon)
          | none => searchIcon cp l start way rest
termination_by names => (cp.unseen way, names.length)
decreasing_by
  · exact Prod.Lex.right _ (Nat.lt_succ_self _)
  · exact Prod.Lex.left _ _ (ClassPath.unseen_lt_of_find? ‹_› ‹_›)
  · exact Prod.Lex.right _ (Nat.lt_succ_self _)

/-- The icon of a class. -/
def ClassPath.iconOf? (cp : ClassPath) (l : Locator) (className : String) :
    Except Failure (Option Icon) :=
  cp.searchIcon l className [] [className]

end ComponentCatalog
