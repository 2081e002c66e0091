import ComponentCatalog.ClassModel.Bean
import ComponentCatalog.Composition.Change
import ComponentCatalog.Layer.Document

/-!
# The properties of a layer

A layer adds properties first: those of beans and of public fields, unless the description has them
already, then those made of methods and the configurable ones.  Its overrides come after that, so
they find the properties that the layer itself adds.
-/

set_option autoImplicit false

namespace ComponentCatalog

/-! ## Properties that a layer adds -/

/-- The property of a component that stands for a bean property. -/
def BeanProperty.toProperty (b : BeanProperty) : Property :=
  { id := b.setter, title := b.name, kind := .beanSetter, typeName? := some b.typeName,
    getter? := b.getter? }

/-- The property of a component that stands for a public field. -/
def FieldDecl.toProperty (f : FieldDecl) : Property :=
  { id := f.name, title := f.name, kind := .field, typeName? := some f.typeName }

namespace Description

/-- Adds a property unless its identifier selects one already. -/
def addNewProperty (d : Description) (p : Property) : Description :=
  if (d.property? p.id).isSome then d else d.addProperty p

/-- Adds new properties in order. -/
def addNewProperties (d : Description) (ps : List Property) : Description :=
  ps.foldl addNewProperty d

end Description

namespace Failure

/-- A property of one value is made of a method without exactly one parameter. -/
def notOneArgument (title method : String) (count : Nat) : Failure :=
  load ("single-value property '" ++ title ++ "' needs a one-argument method, " ++ method ++
    " has " ++ toString count)

end Failure

namespace MethodProperty

/-- The property that is made of the method `m`. -/
def toProperty (p : MethodProperty) (m : MethodDecl) : Property :=
  if p.single then
    { id := m.signature, title := p.title, kind := .singleMethod,
      typeName? := m.parameterTypes.head? }
  else { id := m.signature, title := p.title, kind := .method }

/-- Adds the property and applies what is set for it. -/
def apply (s : Setting) (p : MethodProperty) : Change := fun d ↦
  match Hierarchy.findMethod? s.hierarchy p.method with
  | none => s.unknownMember ("no method " ++ p.method ++ " for property '" ++ p.title ++ "'") d
  | some (_, m) =>
    if p.single ∧ m.parameterTypes.length ≠ 1 then
      (d, some ((Failure.notOneArgument p.title p.method m.parameterTypes.length).withClass
        d.componentClass))
    else
      let d := d.addProperty (p.toProperty m)
      match p.override? with
      | some o => (d.configure o, none)
      | none => (d, none)

end MethodProperty

/-! ## Overrides of a layer -/

/-- The overrides of a layer in the order in which they are applied: categories, missing default
values, tags, and the others. -/
def LayerDocument.allOverrides (layer : LayerDocument) : List PropertyOverride :=
  (layer.categories.flatMap fun (category, names) ↦
    names.map fun selector ↦ { selector, category? := some category }) ++
  (layer.noDefaultValue.map fun selector ↦ { selector, noDefaultValue := true }) ++
  (layer.propertyTags.flatMap fun tag ↦
    tag.properties.map fun selector ↦
      { selector, tags := NameMap.empty.insert tag.name tag.value }) ++
  layer.overrides

/-- Adds the properties of beans and public fields that a layer wants. -/
def LayerDocument.addClassProperties (s : Setting) (layer : LayerDocument) (d : Description) :
    Description :=
  let d := if layer.beanProperties then
      d.addNewProperties ((BeanProperty.ofHierarchy s.hierarchy).map (·.toProperty))
    else d
  if layer.fieldProperties then
    d.addNewProperties ((Hierarchy.fields s.hierarchy).map (·.toProperty))
  else d

/-- Applies what a layer says of properties. -/
def LayerDocument.applyProperties (s : Setting) (layer : LayerDocument) : Change :=
  (Change.of (layer.addClassProperties s)).andThen <|
  (Change.each layer.methodProperties (·.apply s)).andThen <|
  Change.of fun d ↦
    layer.allOverrides.foldl Description.configure
      (layer.configurableProperties.foldl Description.addProperty d)

end ComponentCatalog
