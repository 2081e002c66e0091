import ComponentCatalog.ClassModel.Hierarchy
import ComponentCatalog.Resolver.Basic
import ComponentCatalog.Resolver.Icon

/-!
# Resolutions

A resolution makes the description of one class under one key.  It reads the layers of the class's
hierarchy from the root down, and any context layers after them, and applies one after the other.
Then it completes the description: toolkit, icon, default creation, model class, and whether the
description may be kept.

A class none of whose hierarchy has a layer has no description, whatever its context.
-/

set_option autoImplicit false

namespace ComponentCatalog

/-- The parameter by which metadata asks that a description is not kept. -/
def dontCacheParameter : String := "dontCacheDescription"

namespace Resolver

/-- What a component with a hierarchy is composed against. -/
def setting (r : Resolver) (hierarchy : List ClassDecl) : Setting :=
  { hierarchy, classPath := r.classPath, locator := r.locator,
    strictMembers := r.options.strictMembers }

/-- Reads a layer and applies it to the description. -/
def applyLayer (r : Resolver) (s : Setting) (d : Description) (layer : LayerResource) :
    Except Failure Description := do
  let document ← Rules.readLayer r.rules layer.resource
  let d ← (document.apply s layer.className).result d
  pure (d.finishLayer layer.className)

/-- The toolkit of a description: what a layer declares or else that of the last resource whose
bundle has one. -/
def withToolkit (layers : List LayerResource) (d : Description) : Except Failure Description :=
  match d.toolkit?.or (layers.reverse.findSome? (·.resource.toolkit?)) with
  | some toolkit => .ok { d with toolkit? := some toolkit }
  | none => .error (.noToolkit d.componentClass)

/-- The icon of a description: that of its class, unless it has one. -/
def iconFor (r : Resolver) (d : Description) : Except Failure (Option Icon) :=
  match d.icon? with
  | some icon => .ok (some icon)
  | none => r.classPath.iconOf? r.locator d.componentClass

/-- The description with its icon. -/
def withIcon (r : Resolver) (d : Description) : Except Failure Description := do
  pure { d with icon? := ← r.iconFor d }

/-- Refuses a description without a model class. -/
def requireModel (d : Description) : Except Failure Description :=
  if d.modelClass?.isSome then .ok d else .error (.noModelClass d.componentClass)

/-- The description with the answers to whether it and its presentations may be kept, by the last
of its layers. -/
def withCaching (r : Resolver) (last : LayerResource) (d : Description) : Description :=
  { d with
    cached := d.key.isPure && d.parameter? dontCacheParameter != some "true" &&
      (!r.options.honorPackageMarkers || r.locator.keepsDescriptions last d.componentClass)
    presentationCached := r.locator.keepsPresentations last d.componentClass }

/-- Completes a description after its layers, the last of which is `last`. -/
def complete (r : Resolver) (layers : List LayerResource) (last : LayerResource)
    (d : Description) : Except Failure Description := do
  let d ← withToolkit layers d
  let d ← r.withIcon d
  let d ← requireModel d.configureDefaultCreation
  pure (r.withCaching last d.joinProperties)

/-- Runs a processor.  A failure of another kind becomes the cause of the processor's failure. -/
def runProcessor (d : Description) (p : Processor) : Except Failure Description :=
  (p.process d).mapError fun failure ↦
    if failure.kind = .processor then failure
    else (Failure.processor ("processor " ++ p.name ++ " failed")).causedBy failure

/-- The description of a class by its layers and the context layers `additional`. -/
def composed (r : Resolver) (key : Key) (c : ClassDecl) (additional : List LayerResource) :
    Except Failure Description := do
  let hierarchy ← r.classPath.hierarchy c
  match (r.locator.layersOf hierarchy), additional.getLast? with
  | [], _ => .error (.noDescriptions c.name)
  | first :: rest, last? =>
    let layers := first :: rest ++ additional
    let d ← layers.foldlM (r.applyLayer (r.setting hierarchy)) (.ofClass key c)
    let d ← r.complete layers (last?.getD ((first :: rest).getLast (by simp))) d
    r.processors.foldlM runProcessor d

/-- The description of a class by its layers and the context layers `additional`; a failure names
the class if it names no other. -/
def resolve (r : Resolver) (key : Key) (c : ClassDecl) (additional : List LayerResource) :
    Except Failure Description :=
  (r.composed key c additional).mapError (·.orClass c.name)

/-- The layer at the path of a contextual key, for the class that the key is about. -/
def contextLayer? (r : Resolver) (key : Key) : Option LayerResource :=
  (r.locator.find? key.descriptionPath).map fun resource ↦
    { className := key.componentClass, resource }

/-- The layers for a parameter that the classes of its host's hierarchy have, from the root down. -/
def parameterLayers (r : Resolver) (host : Description) (p : ParameterPlace) :
    Except Failure (List LayerResource) := do
  let hierarchy ← r.classPath.hierarchy host.classDecl
  pure (hierarchy.reverse.filterMap fun c ↦ r.contextLayer? (p.key (.pure c.name)))

end Resolver

end ComponentCatalog
