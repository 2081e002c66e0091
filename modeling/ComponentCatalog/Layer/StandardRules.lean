import ComponentCatalog.Layer.Rule

/-!
# The standard rules

The rules of the component metadata format.  Each group of rules reads one part of a layer: the head
of the component, creations, morphing targets, properties, constructors and methods, the order of
methods, and editors.

A part that spans several elements is begun as a frame when its outer element opens, filled by the
rules for the inner elements, and put in its place when the outer element closes.
-/

set_option autoImplicit false

namespace ComponentCatalog

open Xml

/-! ## Attributes -/

namespace Failure

/-- An element lacks an attribute. -/
def missingAttribute (e : Element) (name : String) : Failure :=
  load ("<" ++ e.name ++ "> requires attribute '" ++ name ++ "'")

/-- An attribute is no truth value. -/
def notTruthValue (e : Element) (name found : String) : Failure :=
  load ("<" ++ e.name ++ "> attribute '" ++ name ++ "' must be true or false, found '" ++
    found ++ "'")

end Failure

namespace Xml.Element

/-- The value of an attribute that has to be there. -/
def required (e : Element) (name : String) : Except Failure String :=
  match e.attribute? name with
  | some value => .ok value
  | none => .error (.missingAttribute e name)

/-- The truth value of an attribute; false without it. -/
def flag (e : Element) (name : String) : Except Failure Bool :=
  match e.attribute? name with
  | none => .ok false
  | some value =>
    if value = "false" then .ok false
    else if value = "true" then .ok true
    else .error (.notTruthValue e name value)

/-- The words of the attribute `names`. -/
def namesAttribute (e : Element) : Except Failure (List String) := do
  pure (Text.words (← e.required "names"))

/-- The attribute `order`. -/
def orderAttribute (e : Element) : Except Failure MethodOrder := do
  match MethodOrder.parse (← e.required "order") with
  | .ok order => .ok order
  | .error message => .error (.load message)

end Xml.Element

/-- Reads a category. -/
def readCategory (text : String) : Except Failure PropertyCategory :=
  match PropertyCategory.parse text with
  | .ok category => .ok category
  | .error message => .error (.load message)

namespace StandardRules

/-! ## The head of a component -/

def toolkit : Rule where
  pattern := "component/toolkit"
  onOpen e r := do
    let id ← e.required "id"
    pure (r.edit ({ · with toolkit? := some id }))

def model : Rule where
  pattern := "component/model"
  onOpen e r := do
    let className ← e.required "class"
    pure (r.edit ({ · with modelClass? := some className }))

def order : Rule where
  pattern := "component/order"
  onOpen e r := .ok (r.edit ({ · with order? := some e.trimmedText }))

def description : Rule where
  pattern := "component/description"
  onOpen e r := .ok (r.edit ({ · with description? := some e.trimmedText }))

def componentParameter : Rule where
  pattern := "component/parameters/parameter"
  onOpen e r := do
    let name ← e.required "name"
    pure (r.edit fun d ↦ { d with parameters := d.parameters.insert name e.trimmedText })

/-- A rule that includes or excludes exposing methods. -/
def exposing (pattern : String) (includes : Bool) : Rule where
  pattern := pattern
  onOpen e r :=
    let rule : ExposingRule :=
      { includes, package? := e.attribute? "package", method? := e.attribute? "method" }
    .ok (r.edit fun d ↦ { d with exposingRules := d.exposingRules ++ [rule] })

def headRules : List Rule :=
  [toolkit, model, order, description, componentParameter,
    exposing "component/exposing-rules/include" true,
    exposing "component/exposing-rules/exclude" false]

/-! ## Creations -/

/-- Changes the creation under construction. -/
def editCreation (e : Element) (r : Reading) (change : Creation → Creation) :
    Except Failure Reading :=
  r.editTop e fun
    | .creation c isDefault => some (.creation (change c) isDefault)
    | _ => none

/-- The element of a creation. -/
def creation (pattern : String) (isDefault : Bool) : Rule where
  pattern := pattern
  onOpen e r :=
    .ok (r.push (.creation { id? := e.attribute? "id", name? := e.attribute? "name" } isDefault))
  onClose e r := do
    let (frame, r) ← r.pop e
    match frame with
    | .creation c true => pure (r.edit ({ · with creationDefault? := some c }))
    | .creation c false => pure (r.edit fun d ↦ { d with creations := d.creations ++ [c] })
    | other => .error (.misplaced e (some other.name))

def creationDescription (pattern : String) : Rule where
  pattern := pattern ++ "/description"
  onOpen e r := editCreation e r ({ · with description? := some e.trimmedText })

def creationSource (pattern : String) : Rule where
  pattern := pattern ++ "/source"
  onOpen e r := editCreation e r ({ · with source? := some e.trimmedText })

def creationInvocation (pattern : String) : Rule where
  pattern := pattern ++ "/invocation"
  onOpen e r := do
    let signature ← e.required "signature"
    editCreation e r fun c ↦
      { c with invocations := c.invocations ++ [{ signature, arguments := e.trimmedText }] }

def creationParameter (pattern : String) : Rule where
  pattern := pattern ++ "/parameter"
  onOpen e r := do
    let name ← e.required "name"
    editCreation e r fun c ↦ { c with parameters := c.parameters.insert name e.trimmedText }

def creationTag (pattern : String) : Rule where
  pattern := pattern ++ "/tag"
  onOpen e r := do
    let name ← e.required "name"
    let value ← e.required "value"
    editCreation e r fun c ↦ { c with tags := c.tags.insert name value }

def creationTypeParameter (pattern : String) : Rule where
  pattern := pattern ++ "/typeParameters/typeParameter"
  onOpen e r := do
    let name ← e.required "name"
    let typeName ← e.required "type"
    let parameter : TypeParameter := { name, typeName, title? := e.attribute? "title" }
    editCreation e r fun c ↦ { c with typeParameters := c.typeParameters ++ [parameter] }

/-- The rules for a kind of creation. -/
def creationRulesFor (pattern : String) (isDefault : Bool) : List Rule :=
  [creation pattern isDefault, creationDescription pattern, creationSource pattern,
    creationInvocation pattern, creationParameter pattern, creationTag pattern,
    creationTypeParameter pattern]

def creationRules : List Rule :=
  creationRulesFor "component/creation" false ++ creationRulesFor "component/creation-default" true

/-! ## Morphing targets -/

/-- Changes the morphing targets under construction. -/
def editMorphTargets (e : Element) (r : Reading) (change : MorphTargets → MorphTargets) :
    Except Failure Reading :=
  r.editTop e fun
    | .morphTargets targets => some (.morphTargets (change targets))
    | _ => none

def morphTargets : Rule where
  pattern := "component/morphTargets"
  onOpen _ r := .ok (r.push (.morphTargets {}))
  onClose e r := do
    let (frame, r) ← r.pop e
    match frame with
    | .morphTargets targets => pure (r.edit ({ · with morphTargets? := some targets }))
    | other => .error (.misplaced e (some other.name))

def noInherit : Rule where
  pattern := "component/morphTargets/noInherit"
  onOpen e r := editMorphTargets e r ({ · with noInherit := true })

def morphTarget : Rule where
  pattern := "component/morphTargets/morphTarget"
  onOpen e r := do
    let className ← e.required "class"
    let target : MorphingTarget := { className, creationId? := e.attribute? "creationId" }
    editMorphTargets e r fun t ↦ { t with targets := t.targets ++ [target] }

def morphingRules : List Rule := [morphTargets, noInherit, morphTarget]

/-! ## Properties -/

def beanProperties : Rule where
  pattern := "component/standard-bean-properties"
  onOpen _ r := .ok (r.edit ({ · with beanProperties := true }))

def fieldProperties : Rule where
  pattern := "component/public-field-properties"
  onOpen _ r := .ok (r.edit ({ · with fieldProperties := true }))

def noDefaultValue : Rule where
  pattern := "component/properties-noDefaultValue"
  onOpen e r := do
    let names ← e.namesAttribute
    pure (r.edit fun d ↦ { d with noDefaultValue := d.noDefaultValue ++ names })

def propertyTag : Rule where
  pattern := "component/property-tag"
  onOpen e r := do
    let properties ← e.namesAttribute
    let name ← e.required "name"
    let value ← e.required "value"
    pure (r.edit fun d ↦ { d with propertyTags := d.propertyTags ++ [{ properties, name, value }] })

/-- The rule for the properties of a category. -/
def category (pattern : String) (category : PropertyCategory) : Rule where
  pattern := pattern
  onOpen e r := do
    let names ← e.namesAttribute
    pure (r.edit fun d ↦ { d with categories := d.categories ++ [(category, names)] })

/-- The rule for properties made of methods. -/
def methodProperty (pattern : String) (single : Bool) : Rule where
  pattern := pattern
  onOpen e r := do
    let title ← e.required "title"
    let method ← e.required "method"
    pure (r.push (.methodProperty { title, method, single }))
  onClose e r := do
    let (frame, r) ← r.pop e
    match frame with
    | .methodProperty p =>
      pure (r.edit fun d ↦ { d with methodProperties := d.methodProperties ++ [p] })
    | other => .error (.misplaced e (some other.name))

def property : Rule where
  pattern := "component/property"
  onOpen e r := do
    let selector ← e.required "id"
    pure (r.push (.property { selector }))
  onClose e r := do
    let (frame, r) ← r.pop e
    match frame with
    | .property o => pure (r.edit fun d ↦ { d with overrides := d.overrides ++ [o] })
    | other => .error (.misplaced e (some other.name))

def propertyCategory (pattern : String) : Rule where
  pattern := pattern ++ "/category"
  onOpen e r := do
    let category ← readCategory (← e.required "value")
    r.editOverride e ({ · with category? := some category })

def propertyDefaultValue (pattern : String) : Rule where
  pattern := pattern ++ "/defaultValue"
  onOpen e r := do
    let value ← e.required "value"
    r.editOverride e ({ · with defaultValue? := some value })

def propertyGetter (pattern : String) : Rule where
  pattern := pattern ++ "/getter"
  onOpen e r := do
    let getter ← e.required "name"
    r.editOverride e ({ · with getter? := some getter })

def propertyTagOf (pattern : String) : Rule where
  pattern := pattern ++ "/tag"
  onOpen e r := do
    let name ← e.required "name"
    let value ← e.required "value"
    r.editOverride e fun o ↦ { o with tags := o.tags.insert name value }

/-- The rules for what is set for one property. -/
def overrideRules (pattern : String) : List Rule :=
  [propertyCategory pattern, propertyDefaultValue pattern, propertyGetter pattern,
    propertyTagOf pattern]

def configurableProperty : Rule where
  pattern := "component/add-property"
  onOpen e r := do
    let id ← e.required "id"
    let title ← e.required "title"
    let category ← match e.attribute? "category" with
      | some text => readCategory text
      | none => pure .normal
    pure (r.push (.configurableProperty
      { id, title, kind := .configurable, typeName? := e.attribute? "type", category }))
  onClose e r := do
    let (frame, r) ← r.pop e
    match frame with
    | .configurableProperty p =>
      pure (r.edit fun d ↦ { d with configurableProperties := d.configurableProperties ++ [p] })
    | other => .error (.misplaced e (some other.name))

def propertyRules : List Rule :=
  [beanProperties, fieldProperties, noDefaultValue, propertyTag,
    category "component/properties-preferred" .preferred,
    category "component/properties-normal" .normal,
    category "component/properties-advanced" .advanced,
    category "component/properties-advanced-really" .advancedReally,
    category "component/properties-hidden" .hidden,
    methodProperty "component/method-single-property" true,
    methodProperty "component/method-property" false,
    property] ++
  overrideRules "component/property" ++ overrideRules "component/method-single-property" ++
  [configurableProperty]

/-! ## Constructors and methods -/

def constructor : Rule where
  pattern := "component/constructors/constructor"
  onOpen _ r := .ok (r.push (.constructor {}))
  onClose e r := do
    let (frame, r) ← r.pop e
    match frame with
    | .constructor n => pure (r.edit fun d ↦ { d with constructors := d.constructors ++ [n] })
    | other => .error (.misplaced e (some other.name))

def method : Rule where
  pattern := "component/methods/method"
  onOpen e r := do
    let order? ← match e.attribute? "order" with
      | some _ => some <$> e.orderAttribute
      | none => pure none
    let name ← e.required "name"
    pure (r.push (.method { name, order? }))
  onClose e r := do
    let (frame, r) ← r.pop e
    match frame with
    | .method n => pure (r.edit fun d ↦ { d with methods := d.methods ++ [n] })
    | other => .error (.misplaced e (some other.name))

def methodTag : Rule where
  pattern := "component/methods/method/tag"
  onOpen e r := do
    let name ← e.required "name"
    let value ← e.required "value"
    r.editTop e fun
      | .method n => some (.method { n with tags := n.tags.insert name value })
      | _ => none

/-- The rule for an operation on the set of methods. -/
def methodOperation (pattern : String) (includes : Bool) : Rule where
  pattern := pattern
  onOpen e r := do
    let signature ← e.required "signature"
    pure (r.edit fun d ↦
      { d with methodOperations := d.methodOperations ++ [{ includes, pattern := signature }] })

/-- The number of parameters of the constructor or method under construction. -/
def parameterCount (e : Element) (r : Reading) : Except Failure Nat :=
  match r.top? with
  | some (.constructor n) => .ok n.parameters.length
  | some (.method n) => .ok n.parameters.length
  | other => .error (.misplaced e (other.map (·.name)))

/-- Adds a parameter to the constructor or method under construction. -/
def addParameter (e : Element) (r : Reading) (p : Parameter) : Except Failure Reading :=
  r.editTop e fun
    | .constructor n => some (.constructor { n with parameters := n.parameters ++ [p] })
    | .method n => some (.method { n with parameters := n.parameters ++ [p] })
    | _ => none

def parameter (pattern : String) : Rule where
  pattern := pattern ++ "/parameter"
  onOpen e r := do
    let index ← parameterCount e r
    let typeName ← e.required "type"
    let parent ← e.flag "parent"
    let child ← e.flag "child"
    let parent2 ← e.flag "parent2"
    let child2 ← e.flag "child2"
    pure (r.push (.parameter
      { index, typeName, name? := e.attribute? "name",
        defaultSource? := e.attribute? "defaultSource", property? := e.attribute? "property",
        parent, child, parent2, child2 }))
  onClose e r := do
    let (frame, r) ← r.pop e
    match frame with
    | .parameter p => addParameter e r p
    | other => .error (.misplaced e (some other.name))

def parameterTag (pattern : String) : Rule where
  pattern := pattern ++ "/parameter/tag"
  onOpen e r := do
    let name ← e.required "name"
    let value ← e.required "value"
    r.editTop e fun
      | .parameter p => some (.parameter { p with tags := p.tags.insert name value })
      | _ => none

def memberRules : List Rule :=
  [constructor, method, methodTag,
    methodOperation "component/methods/methods-include" true,
    methodOperation "component/methods/methods-exclude" false,
    parameter "component/constructors/constructor",
    parameterTag "component/constructors/constructor",
    parameter "component/methods/method",
    parameterTag "component/methods/method"]

/-! ## The order of methods -/

/-- Sets the order of a method. -/
def addOrder (signature : String) (order : MethodOrder) (d : LayerDocument) : LayerDocument :=
  { d with methodOrders :=
      { d.methodOrders with methods := d.methodOrders.methods ++ [(signature, order)] } }

def defaultOrder : Rule where
  pattern := "component/method-order/default"
  onOpen e r := do
    let order ← e.orderAttribute
    pure (r.edit fun d ↦ { d with methodOrders := { d.methodOrders with default? := some order } })

def methodOrder : Rule where
  pattern := "component/method-order/method"
  onOpen e r := do
    let signature ← e.required "signature"
    let order ← e.orderAttribute
    pure (r.edit (addOrder signature order))

def methodOrderGroup : Rule where
  pattern := "component/method-order/methods"
  onOpen e r := do
    let order ← e.orderAttribute
    pure (r.push (.methodOrderGroup order))
  onClose e r := do
    let (frame, r) ← r.pop e
    match frame with
    | .methodOrderGroup _ => pure r
    | other => .error (.misplaced e (some other.name))

def methodOfGroup : Rule where
  pattern := "component/method-order/methods/s"
  onOpen e r :=
    match r.top? with
    | some (.methodOrderGroup order) => .ok (r.edit (addOrder e.trimmedText order))
    | other => .error (.misplaced e (other.map (·.name)))

def orderRules : List Rule := [defaultOrder, methodOrder, methodOrderGroup, methodOfGroup]

/-! ## Editors -/

/-- Gives the parameter or the override under construction an editor. -/
def setEditor (e : Element) (r : Reading) (editor : Editor) : Except Failure Reading :=
  match r.top? with
  | some (.parameter _) =>
    r.editTop e fun
      | .parameter p => some (.parameter { p with editor? := some editor })
      | _ => none
  | _ => r.editOverride e ({ · with editor? := some editor })

def editor (pattern : String) : Rule where
  pattern := pattern
  onOpen e r := do
    let id ← e.required "id"
    pure (r.push (.editor { id }))
  onClose e r := do
    let (frame, r) ← r.pop e
    match frame with
    | .editor editor => setEditor e r editor
    | other => .error (.misplaced e (some other.name))

/-- Changes the parameters of the editor or configurable property under construction. -/
def editEditorParameters (e : Element) (r : Reading)
    (change : EditorParameters → EditorParameters) : Except Failure Reading :=
  r.editTop e fun
    | .editor editor => some (.editor { editor with parameters := change editor.parameters })
    | .configurableProperty p =>
      some (.configurableProperty { p with parameters := change p.parameters })
    | _ => none

def editorValue (pattern : String) : Rule where
  pattern := pattern
  onOpen e r := do
    let name ← e.required "name"
    editEditorParameters e r (·.setValue name e.trimmedText)

def editorItem (pattern : String) : Rule where
  pattern := pattern
  onOpen e r := do
    let name ← e.required "name"
    editEditorParameters e r (·.addItem name e.trimmedText)

def editorRules : List Rule :=
  [editor "component/property/editor",
    editor "component/method-single-property/editor",
    editor "component/constructors/constructor/parameter/editor",
    editor "component/methods/method/parameter/editor",
    editorValue "*/editor/parameter",
    editorValue "component/add-property/parameter",
    editorItem "*/editor/parameter-list",
    editorItem "component/add-property/parameter-list"]

end StandardRules

/-- The rules of the component metadata format. -/
def standardRules : List Rule :=
  StandardRules.headRules ++ StandardRules.creationRules ++ StandardRules.morphingRules ++
    StandardRules.propertyRules ++ StandardRules.memberRules ++ StandardRules.orderRules ++
    StandardRules.editorRules

end ComponentCatalog
