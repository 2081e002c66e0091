import ComponentCatalog.Layer.Document

/-!
# Merging layer documents

Two documents can be read as one: what the first says, then what the second says.  What is said once
is taken from the second where that says it, lists stand one after the other, and of the parameters
those of the second count.  The document that says nothing is neutral on either side.

**A change that adds to what a document says does not read it.**  It comes to the same to merge
first and to change then (`LayerDocument.Additive`).
-/

set_option autoImplicit false

namespace ComponentCatalog

universe u

namespace NameMap

variable {α : Type u}

@[simp] theorem overlay_empty (m : NameMap α) : m.overlay empty = m := rfl

@[simp] theorem empty_overlay (m : NameMap α) : empty.overlay m = m :=
  ext_get? fun name ↦ by rw [get?_overlay, get?_empty, Option.or_none]

theorem overlay_insert (m upper : NameMap α) (name : String) (value : α) :
    m.overlay (upper.insert name value) = (m.overlay upper).insert name value := by
  refine ext_get? fun other ↦ ?_
  rw [get?_overlay, get?_insert, get?_insert, get?_overlay]
  split
  · rfl
  · rfl

end NameMap

/-- What two layers say of the order of methods, the second after the first. -/
def MethodOrders.merge (first second : MethodOrders) : MethodOrders where
  default? := second.default?.or first.default?
  methods := first.methods ++ second.methods

namespace LayerDocument

/-- What two documents say, the second after the first. -/
def merge (first second : LayerDocument) : LayerDocument where
  toolkit? := second.toolkit?.or first.toolkit?
  modelClass? := second.modelClass?.or first.modelClass?
  order? := second.order?.or first.order?
  description? := second.description?.or first.description?
  creations := first.creations ++ second.creations
  creationDefault? := second.creationDefault?.or first.creationDefault?
  morphTargets? := second.morphTargets?.or first.morphTargets?
  exposingRules := first.exposingRules ++ second.exposingRules
  beanProperties := first.beanProperties || second.beanProperties
  fieldProperties := first.fieldProperties || second.fieldProperties
  categories := first.categories ++ second.categories
  noDefaultValue := first.noDefaultValue ++ second.noDefaultValue
  propertyTags := first.propertyTags ++ second.propertyTags
  methodProperties := first.methodProperties ++ second.methodProperties
  constructors := first.constructors ++ second.constructors
  methods := first.methods ++ second.methods
  methodOperations := first.methodOperations ++ second.methodOperations
  methodOrders := first.methodOrders.merge second.methodOrders
  parameters := first.parameters.overlay second.parameters
  overrides := first.overrides ++ second.overrides
  configurableProperties := first.configurableProperties ++ second.configurableProperties

@[simp] theorem merge_nothing (d : LayerDocument) : d.merge {} = d := by
  simp [merge, MethodOrders.merge]

@[simp] theorem nothing_merge (d : LayerDocument) : merge {} d = d := by
  simp [merge, MethodOrders.merge]

/-- The change adds to the end of what a document says, whatever that is. -/
def Additive (change : LayerDocument → LayerDocument) : Prop :=
  ∀ d e, change (merge d e) = merge d (change e)

end LayerDocument

end ComponentCatalog
