import ComponentCatalog.ClassModel.Bean
import ComponentCatalog.Composition.Change
import ComponentCatalog.Layer.Document

/-!
# The constructors and methods of a layer

A description has all constructors of its class from the start, and a layer enriches them.  Of the
methods it has those that layers speak of: a method that is named, matched by an including pattern
or given an order is looked up in the hierarchy and added with what the class model says of it.
-/

set_option autoImplicit false

namespace ComponentCatalog

/-! ## Constructors -/

/-- Enriches the first constructor with the types of the note. -/
def ConstructorNote.apply (s : Setting) (n : ConstructorNote) : Change := fun d ↦
  if (d.constructor? n.signature).isSome then
    (d.updateConstructor n.signature (·.enrich n.parameters), none)
  else s.unknownMember ("no constructor " ++ n.signature) d

/-! ## Methods -/

/-- Makes sure that the description has a method of the hierarchy; a method that the hierarchy does
not have is unknown, in words `message`. -/
def Setting.withMethod (s : Setting) (signature message : String)
    (change : Description → Description) : Change := fun d ↦
  if (d.method? signature).isSome then (change d, none)
  else
    match Hierarchy.findMethod? s.hierarchy signature with
    | some (declaringClass, m) => (change (d.addMethod (.ofDecl declaringClass m)), none)
    | none => s.unknownMember message d

/-- The method with what the note says of it. -/
def Method.annotate (m : Method) (n : MethodNote) : Method :=
  let m := m.enrich n.parameters
  { m with order? := n.order?.or m.order?, tags := m.tags.overlay n.tags }

/-- Adds and annotates the method of a note. -/
def MethodNote.apply (s : Setting) (n : MethodNote) : Change :=
  s.withMethod n.signature ("no method " ++ n.signature) fun d ↦
    d.updateMethod n.signature (·.annotate n)

/-- Adds a method unless there is one with its signature. -/
def Description.addNewMethod (d : Description) (m : Method) : Description :=
  if (d.method? m.signature).isSome then d else d.addMethod m

namespace MethodOperation

/-- The methods of the hierarchy that the pattern matches. -/
def matched (s : Setting) (o : MethodOperation) : List Method :=
  ((Hierarchy.publicMethods s.hierarchy).filter fun (_, m) ↦
    Wildcard.accepts o.pattern m.signature).map fun (declaringClass, m) ↦
      .ofDecl declaringClass m

/-- Adds all methods that match, or drops them.  An including pattern without a star has to match
something. -/
def apply (s : Setting) (o : MethodOperation) : Change := fun d ↦
  if o.includes then
    let methods := o.matched s
    let d := methods.foldl Description.addNewMethod d
    if methods.isEmpty ∧ ¬o.pattern.toList.contains '*' then
      s.unknownMember ("no method " ++ o.pattern) d
    else (d, none)
  else
    ({ d with methods := d.methods.filter fun m ↦ !Wildcard.accepts o.pattern m.signature }, none)

end MethodOperation

/-- Gives an order to a method. -/
def MethodOrder.applyTo (s : Setting) (order : MethodOrder) (signature : String) : Change :=
  s.withMethod signature ("no method " ++ signature ++ " to order") fun d ↦
    d.updateMethod signature ({ · with order? := some order })

/-! ## Both -/

/-- Applies what a layer says of constructors. -/
def LayerDocument.applyConstructors (s : Setting) (layer : LayerDocument) : Change :=
  Change.each layer.constructors (·.apply s)

/-- Applies what a layer says of methods: its notes, its operations, and its orders. -/
def LayerDocument.applyMethods (s : Setting) (layer : LayerDocument) : Change :=
  (Change.each layer.methods (·.apply s)).andThen <|
  (Change.each layer.methodOperations (·.apply s)).andThen <|
  (Change.of fun d ↦
    let defaultMethodOrder? := layer.methodOrders.default?.or d.defaultMethodOrder?
    { d with defaultMethodOrder? }).andThen <|
  Change.each layer.methodOrders.methods fun (signature, order) ↦ order.applyTo s signature

end ComponentCatalog
