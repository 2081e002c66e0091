import ComponentCatalog.Description.Document
import ComponentCatalog.Layer.Document

/-!
# Layer documents as JSON

How a layer document is written: every part of it in a fixed order, absent values as null.
-/

set_option autoImplicit false

namespace ComponentCatalog

/-- Texts. -/
def textsJson (l : List String) : Json := .array (l.map .string)

/-- An order, if there is one. -/
def orderJson (order? : Option MethodOrder) : Json := optionalJson (.string ·.word) order?

/-- The parameters of a constructor or method. -/
def parametersJson (l : List Parameter) : Json := .array (l.map (·.toJson))

def MorphTargets.toJson (m : MorphTargets) : Json :=
  .object [("no_inherit", .bool m.noInherit), ("targets", .array (m.targets.map (·.toJson)))]

def PropertyTag.toJson (t : PropertyTag) : Json :=
  .object [("properties", textsJson t.properties), ("name", .string t.name),
    ("value", .string t.value)]

def MethodProperty.toJson (p : MethodProperty) : Json :=
  .object [("title", .string p.title), ("method", .string p.method), ("single", .bool p.single),
    ("configuration", optionalJson PropertyOverride.toJson p.override?)]

def ConstructorNote.toJson (n : ConstructorNote) : Json :=
  .object [("types", textsJson n.parameterTypes), ("parameters", parametersJson n.parameters)]

def MethodNote.toJson (n : MethodNote) : Json :=
  .object [
    ("name", .string n.name),
    ("order", orderJson n.order?),
    ("types", textsJson n.parameterTypes),
    ("parameters", parametersJson n.parameters),
    ("tags", Tags.toJson n.tags)]

def MethodOperation.toJson (o : MethodOperation) : Json :=
  .array [.string (if o.includes then "include" else "exclude"), .string o.pattern]

def MethodOrders.toJson (o : MethodOrders) : Json :=
  .object [
    ("default", orderJson o.default?),
    ("methods", .array (o.methods.map fun (signature, order) ↦
      .array [.string signature, .string order.word]))]

/-- A whole layer document. -/
def LayerDocument.toJson (d : LayerDocument) : Json :=
  .object [
    ("toolkit", .text? d.toolkit?),
    ("model_class", .text? d.modelClass?),
    ("order", .text? d.order?),
    ("description", .text? d.description?),
    ("creations", .array (d.creations.map (·.toJson))),
    ("creation_default", optionalJson Creation.toJson d.creationDefault?),
    ("morph_targets", optionalJson MorphTargets.toJson d.morphTargets?),
    ("exposing_rules", .array (d.exposingRules.map (·.toJson))),
    ("standard_bean_properties", .bool d.beanProperties),
    ("public_field_properties", .bool d.fieldProperties),
    ("categories", .array (d.categories.map fun (category, names) ↦
      .array [.string category.word, textsJson names])),
    ("no_default_value", textsJson d.noDefaultValue),
    ("property_tags", .array (d.propertyTags.map (·.toJson))),
    ("method_properties", .array (d.methodProperties.map (·.toJson))),
    ("constructors", .array (d.constructors.map (·.toJson))),
    ("methods", .array (d.methods.map (·.toJson))),
    ("method_operations", .array (d.methodOperations.map (·.toJson))),
    ("method_order", d.methodOrders.toJson),
    ("parameters", Tags.toJson d.parameters),
    ("properties", .array (d.overrides.map (·.toJson))),
    ("configurable_properties", .array (d.configurableProperties.map (·.toJson)))]

end ComponentCatalog
