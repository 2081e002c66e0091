import ComponentCatalog.Description.Basic
import ComponentCatalog.Json.Value

/-!
# Descriptions as JSON

How a description and its parts are written: every field in a fixed order, absent values as null.
Only the editor parameters of a property are left out when there are none.
-/

set_option autoImplicit false

namespace ComponentCatalog

/-- Names with their texts. -/
def Tags.toJson (tags : NameMap String) : Json :=
  .object (tags.entries.map fun (name, value) ↦ (name, .string value))

def Toolkit.toJson (t : Toolkit) : Json := .object [("id", .string t.id)]

def Icon.toJson (icon : Icon) : Json :=
  .object [("path", .string icon.path), ("bundle", .text? icon.bundle?)]

/-- A value that may be missing. -/
def optionalJson {α : Type} (write : α → Json) : Option α → Json
  | some a => write a
  | none => .null

def CreationInvocation.toJson (i : CreationInvocation) : Json :=
  .object [("signature", .string i.signature), ("arguments", .string i.arguments)]

def TypeParameter.toJson (p : TypeParameter) : Json :=
  .object [("name", .string p.name), ("type_name", .string p.typeName), ("title", .text? p.title?)]

def Creation.toJson (c : Creation) : Json :=
  .object [
    ("id", .text? c.id?),
    ("name", .text? c.name?),
    ("description", .text? c.description?),
    ("source", .text? c.source?),
    ("invocations", .array (c.invocations.map (·.toJson))),
    ("parameters", Tags.toJson c.parameters),
    ("tags", Tags.toJson c.tags),
    ("type_parameters", .array (c.typeParameters.map (·.toJson))),
    ("icon", optionalJson Icon.toJson c.icon?)]

def MorphingTarget.toJson (t : MorphingTarget) : Json :=
  .object [("class_name", .string t.className), ("creation_id", .text? t.creationId?)]

def ExposingRule.toJson (r : ExposingRule) : Json :=
  .object [("include", .bool r.includes), ("package", .text? r.package?),
    ("method", .text? r.method?)]

def EditorParameters.toJson (p : EditorParameters) : Json :=
  .object [
    ("values", Tags.toJson p.values),
    ("lists", .object (p.lists.entries.map fun (name, items) ↦
      (name, .array (items.map .string))))]

def Editor.toJson (e : Editor) : Json :=
  .object [("id", .string e.id), ("parameters", e.parameters.toJson)]

def Property.toJson (p : Property) : Json :=
  .object ([
    ("id", .string p.id),
    ("title", .string p.title),
    ("kind", .string p.kind.word),
    ("type_name", .text? p.typeName?),
    ("category", .string p.category.word),
    ("editor", optionalJson Editor.toJson p.editor?),
    ("default_value", .text? p.defaultValue?),
    ("getter", .text? p.getter?),
    ("no_default_value", .bool p.noDefaultValue),
    ("tags", Tags.toJson p.tags)] ++
    if p.parameters.isEmpty then [] else [("parameters", p.parameters.toJson)])

def PropertyOverride.toJson (o : PropertyOverride) : Json :=
  .object [
    ("selector", .string o.selector),
    ("category", optionalJson (.string ·.word) o.category?),
    ("editor", optionalJson Editor.toJson o.editor?),
    ("default_value", .text? o.defaultValue?),
    ("getter", .text? o.getter?),
    ("no_default_value", .bool o.noDefaultValue),
    ("tags", Tags.toJson o.tags)]

def Parameter.toJson (p : Parameter) : Json :=
  .object [
    ("index", .nat p.index),
    ("type_name", .string p.typeName),
    ("name", .text? p.name?),
    ("default_source", .text? p.defaultSource?),
    ("parent", .bool p.parent),
    ("child", .bool p.child),
    ("parent2", .bool p.parent2),
    ("child2", .bool p.child2),
    ("property", .text? p.property?),
    ("editor", optionalJson Editor.toJson p.editor?),
    ("tags", Tags.toJson p.tags)]

def Constructor.toJson (c : Constructor) : Json :=
  .object [
    ("declaring_class", .string c.declaringClass),
    ("parameters", .array (c.parameters.map (·.toJson)))]

def Method.toJson (m : Method) : Json :=
  .object [
    ("declaring_class", .string m.declaringClass),
    ("name", .string m.name),
    ("return_type", .string m.returnType),
    ("parameters", .array (m.parameters.map (·.toJson))),
    ("order", optionalJson (.string ·.word) m.order?),
    ("tags", Tags.toJson m.tags)]

/-- The fields of a description in the order in which they are written. -/
def Description.fields (d : Description) : List (String × Json) := [
  ("key", .string d.key.name),
  ("component_class", .string d.componentClass),
  ("toolkit", optionalJson Toolkit.toJson d.toolkit?),
  ("model_class", .text? d.modelClass?),
  ("order", .text? d.order?),
  ("icon", optionalJson Icon.toJson d.icon?),
  ("description", .text? d.description?),
  ("display_name", .text? d.displayName?),
  ("short_description", .text? d.shortDescription?),
  ("creations", .array (d.creations.map (·.toJson))),
  ("creation_default", optionalJson Creation.toJson d.creationDefault?),
  ("morphing_targets", .array (d.morphingTargets.map (·.toJson))),
  ("exposing_rules", .array (d.exposingRules.map (·.toJson))),
  ("properties", .array (d.properties.map (·.toJson))),
  ("constructors", .array (d.constructors.map (·.toJson))),
  ("methods", .array (d.methods.map (·.toJson))),
  ("default_method_order", optionalJson (.string ·.word) d.defaultMethodOrder?),
  ("parameters", Tags.toJson d.parameters),
  ("cached", .bool d.cached),
  ("presentation_cached", .bool d.presentationCached)]

/-- A whole description. -/
def Description.toJson (d : Description) : Json := .object d.fields

end ComponentCatalog
