import ComponentCatalog.ClassModel.Basic
import ComponentCatalog.Resource.Bundle

/-!
# The metadata resources of a hierarchy

Each class can have a metadata resource beside it.  Those of a hierarchy are its layers, from the
root of the hierarchy to the class itself.

Marker files say which results may be kept: one in the package folder for descriptions, one for a
whole bundle for presentations.  They are looked up in the bundle of the last layer, so resources of
project roots never have one.
-/

set_option autoImplicit false

namespace ComponentCatalog

/-- A metadata resource and the class whose layer it holds. -/
structure LayerResource where
  className : String
  resource : Resource
deriving DecidableEq, Repr

/-- What the names of metadata resources end with. -/
def metadataSuffix : String := ".wbp-component.xml"

/-- The path of the metadata resource of something with the path `base`. -/
def metadataPath (base : String) : String := base ++ metadataSuffix

/-- The marker of packages whose descriptions are kept. -/
def keepDescriptionsMarker : String := ".wbp-cache-descriptions"

/-- The marker of bundles whose presentations are kept. -/
def keepPresentationsMarker : String := "wbp-meta/.wbp-cache-presentations"

namespace Locator

/-- The metadata resource of a class. -/
def findMetadata (l : Locator) (c : ClassDecl) : Option LayerResource :=
  (l.find? (metadataPath (ClassName.resourcePath c.name))).map fun resource ↦
    { className := c.name, resource }

/-- The layers of a hierarchy that is given class first: those of the root come first. -/
def layersOf (l : Locator) (hierarchy : List ClassDecl) : List LayerResource :=
  (hierarchy.filterMap l.findMetadata).reverse

/-- The path of a marker in the package of a class. -/
def markerPath (className marker : String) : String :=
  let package := ClassName.resourcePath (ClassName.package className)
  if package.isEmpty then marker else package ++ "/" ++ marker

/-- Whether the bundle of a layer has a marker in the package of a class. -/
def hasPackageMarker (l : Locator) (layer : LayerResource) (className marker : String) : Bool :=
  match layer.resource.bundle? with
  | some bundle => l.hasEntry bundle (markerPath className marker)
  | none => false

/-- Whether the package of a class is marked for keeping its descriptions. -/
def keepsDescriptions (l : Locator) (last : LayerResource) (className : String) : Bool :=
  l.hasPackageMarker last className keepDescriptionsMarker

/-- Whether the bundle of the class's own layer is marked for keeping presentations. -/
def keepsPresentations (l : Locator) (last : LayerResource) (className : String) : Bool :=
  last.className == className &&
    match last.resource.bundle? with
    | some bundle => l.hasEntry bundle keepPresentationsMarker
    | none => false

end Locator

end ComponentCatalog
