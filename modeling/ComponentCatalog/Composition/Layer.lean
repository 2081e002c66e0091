import ComponentCatalog.Composition.Members
import ComponentCatalog.Composition.Properties

/-!
# Applying layers

A layer is applied to a description part by part.

* Single texts replace what earlier layers said.
* Creations, morphing targets and exposing rules are added at the end.
* Parameters are replaced by name.
* Properties, constructors and methods come last, because they alone can fail.

Creations and the description text are not inherited: `Description.finishLayer` drops them after the
layer of any other class than the component's own.
-/

set_option autoImplicit false

namespace ComponentCatalog

/-- A creation with the icon beside the component's class that goes by its identifier. -/
def Creation.withIcon (s : Setting) (componentClass : String) (c : Creation) : Creation :=
  match c.id? with
  | some id => { c with icon? := s.locator.findIcon componentClass ("_" ++ id) }
  | none => c

/-- The morphing targets after those of a layer; targets that are not on the class path are left
out. -/
def MorphTargets.extend (s : Setting) (m : MorphTargets) (earlier : List MorphingTarget) :
    List MorphingTarget :=
  (if m.noInherit then [] else earlier) ++ m.targets.filter fun t ↦ s.classPath.contains t.className

namespace LayerDocument

/-- Applies the parts of a layer that cannot fail. -/
def applyHead (s : Setting) (layer : LayerDocument) (layerClass : String) (d : Description) :
    Description :=
  { d with
    currentClass? := some layerClass
    toolkit? := (layer.toolkit?.map Toolkit.mk).or d.toolkit?
    modelClass? := layer.modelClass?.or d.modelClass?
    order? := layer.order?.or d.order?
    description? := layer.description?.or d.description?
    creations := d.creations ++ layer.creations.map (·.withIcon s d.componentClass)
    creationDefault? :=
      (layer.creationDefault?.map (·.withIcon s d.componentClass)).or d.creationDefault?
    morphingTargets :=
      match layer.morphTargets? with
      | some m => m.extend s d.morphingTargets
      | none => d.morphingTargets
    exposingRules := d.exposingRules ++ layer.exposingRules
    parameters := d.parameters.overlay layer.parameters }

/-- Applies a layer that was found for the class `layerClass`. -/
def apply (s : Setting) (layer : LayerDocument) (layerClass : String) : Change :=
  (Change.of (layer.applyHead s layerClass)).andThen <|
  (layer.applyProperties s).andThen <|
  (layer.applyConstructors s).andThen <|
  layer.applyMethods s

end LayerDocument

/-- Drops what a component does not inherit, after the layer of `layerClass`. -/
def Description.finishLayer (layerClass : String) (d : Description) : Description :=
  if layerClass = d.componentClass then d
  else { d.clearCreations with description? := none }

end ComponentCatalog
