import ComponentCatalog.ClassModel.ClassPath
import ComponentCatalog.Description.Basic

/-!
# Changes of descriptions

A description grows by changes, and a change can fail.  One that fails half-way leaves what it has
done so far, so a `Change` always gives a description, and beside it the failure if there is one.

Changes are put together by `Change.andThen` and `Change.each`, which stop at the first failure.
-/

set_option autoImplicit false

namespace ComponentCatalog

universe u

/-- What a component is composed against. -/
structure Setting where
  /-- The component's class and its superclasses. -/
  hierarchy : List ClassDecl
  classPath : ClassPath
  locator : Locator
  /-- Whether metadata must name no members that the component does not have. -/
  strictMembers : Bool

/-- A change of a description, which gives the description it leaves and any failure. -/
abbrev Change := Description → Description × Option Failure

namespace Change

/-- A change that cannot fail. -/
def of (f : Description → Description) : Change := fun d ↦ (f d, none)

/-- Changes nothing. -/
def skip : Change := of id

/-- Fails without a change. -/
def fail (f : Failure) : Change := fun d ↦ (d, some f)

/-- One change and, unless it fails, another one. -/
def andThen (first second : Change) : Change := fun d ↦
  match first d with
  | (d, none) => second d
  | (d, some f) => (d, some f)

/-- The changes for the members of a list, one after the other. -/
def each {α : Type u} (l : List α) (change : α → Change) : Change :=
  match l with
  | [] => skip
  | a :: rest => (change a).andThen (each rest change)

/-- The description that a change leaves, if it does not fail. -/
def result (c : Change) (d : Description) : Except Failure Description :=
  match c d with
  | (d, none) => .ok d
  | (_, some f) => .error f

end Change

/-- Metadata names a member that the component does not have: a failure in strict settings, and
otherwise nothing happens. -/
def Setting.unknownMember (s : Setting) (message : String) : Change := fun d ↦
  if s.strictMembers then
    (d, some ((Failure.unknownMember message).withClass d.componentClass))
  else (d, none)

end ComponentCatalog
