import ComponentCatalog.NameMap
import ComponentCatalog.Resource.Bundle

/-!
# Creations and morphing targets

A creation is a way to make a component: a source text with places to fill in, calls that follow
it, and what a user can choose.  A morphing target is a class that a component can be turned into.
-/

set_option autoImplicit false

namespace ComponentCatalog

/-- Free-form metadata: values by name. -/
abbrev Tags := NameMap String

/-- A call that follows the creation of a component. -/
structure CreationInvocation where
  signature : String
  arguments : String
deriving DecidableEq

/-- A type parameter that the user is asked for. -/
structure TypeParameter where
  name : String
  typeName : String
  title? : Option String := none
deriving DecidableEq

/-- A way to make a component. -/
structure Creation where
  id? : Option String := none
  name? : Option String := none
  description? : Option String := none
  /-- The source text, such as `new %component.class%(%parent%, SWT.NONE)`. -/
  source? : Option String := none
  invocations : List CreationInvocation := []
  parameters : NameMap String := .empty
  tags : Tags := .empty
  typeParameters : List TypeParameter := []
  icon? : Option Icon := none
deriving DecidableEq

/-- A class that a component can be turned into. -/
structure MorphingTarget where
  className : String
  creationId? : Option String := none
deriving DecidableEq

end ComponentCatalog
