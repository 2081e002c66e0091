import ComponentCatalog.Layer.Rule
import ComponentCatalog.Resource.Bundle
import ComponentCatalog.Xml.Document

/-!
# Reading layers

A metadata resource is opened, parsed and read by rules.  Whatever goes wrong is a failure that
names the resource.
-/

set_option autoImplicit false

namespace ComponentCatalog

namespace Failure

/-- A resource cannot be read. -/
def cannotOpen (location : String) : Failure :=
  ((load ("cannot open " ++ location)).withResource location).withOrigin .outside

/-- A resource is no well-formed document. -/
def cannotParse (location : String) : Failure :=
  ((load ("cannot parse " ++ location)).withResource location).withOrigin .xmlSyntax

end Failure

/-- The layer that a resource holds. -/
def Rules.readLayer (rules : List Rule) (resource : Resource) : Except Failure LayerDocument :=
  match resource.content? with
  | none => .error (.cannotOpen resource.describe)
  | some content =>
    match Xml.read content with
    | none => .error (.cannotParse resource.describe)
    | some root => (Rules.apply rules root).mapError (·.withResource resource.describe)

end ComponentCatalog
