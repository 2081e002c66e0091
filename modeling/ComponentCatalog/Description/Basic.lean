import ComponentCatalog.Description.Exposing
import ComponentCatalog.Description.Invocation
import ComponentCatalog.Description.Key

/-!
# Component descriptions

A description is all that the metadata of a component says, put together for one component in one
context.  It starts with what the class itself declares (`Description.ofClass`), is filled layer by
layer, and answers questions by name.
-/

set_option autoImplicit false

namespace ComponentCatalog

/-- The description of a component. -/
structure Description where
  key : Key
  /-- The class of the component. -/
  classDecl : ClassDecl
  /-- The class whose layer was applied last. -/
  currentClass? : Option String := none
  toolkit? : Option Toolkit := none
  modelClass? : Option String := none
  order? : Option String := none
  icon? : Option Icon := none
  description? : Option String := none
  creations : List Creation := []
  creationDefault? : Option Creation := none
  morphingTargets : List MorphingTarget := []
  exposingRules : List ExposingRule := []
  /-- The properties, and the overrides that wait for theirs. -/
  table : PropertyTable := {}
  constructors : List Constructor := []
  methods : List Method := []
  defaultMethodOrder? : Option MethodOrder := none
  parameters : NameMap String := .empty
  /-- Whether the description may be kept beyond a session. -/
  cached : Bool := false
  /-- Whether presentations of the component may be kept. -/
  presentationCached : Bool := false
deriving DecidableEq

namespace Description

/-- The description of a class before any layer: its constructors and nothing else. -/
def ofClass (key : Key) (c : ClassDecl) : Description :=
  { key, classDecl := c,
    constructors := c.constructors.map fun d ↦ .ofTypes c.name d.parameterTypes }

/-- The name of the component's class. -/
def componentClass (d : Description) : String := d.classDecl.name

/-- The display name of the class's bean descriptor. -/
def displayName? (d : Description) : Option String := d.classDecl.displayName?

/-- The short description of the class's bean descriptor. -/
def shortDescription? (d : Description) : Option String := d.classDecl.shortDescription?

/-! ## Questions -/

/-- The properties of the component. -/
def properties (d : Description) : List Property := d.table.properties

/-- The creation with an identifier; without one, the default creation. -/
def creation? (d : Description) (id? : Option String) : Option Creation :=
  match id? with
  | some id => d.creations.find? (·.id? == some id)
  | none => d.creationDefault?

/-- The value of a parameter. -/
def parameter? (d : Description) (name : String) : Option String := d.parameters.get? name

/-- The property with an identifier or else with a title. -/
def property? (d : Description) (selector : String) : Option Property := d.table.find? selector

/-- The constructor with a signature. -/
def constructor? (d : Description) (signature : String) : Option Constructor :=
  d.constructors.find? (·.signature == signature)

/-- The method with a signature. -/
def method? (d : Description) (signature : String) : Option Method :=
  d.methods.find? (·.signature == signature)

/-- The order of a method: its own or else that of the component. -/
def methodOrder? (d : Description) (signature : String) : Option MethodOrder :=
  ((d.method? signature).bind (·.order?)).or d.defaultMethodOrder?

/-- Whether children are exposed by a method of a class in a package; nothing if no rule says. -/
def isExposed (d : Description) (package method : String) : Option Bool :=
  ExposingRule.lastMatch d.exposingRules package method

/-! ## Changes -/

/-- Adds a creation at the end. -/
def addCreation (d : Description) (creation : Creation) : Description :=
  { d with creations := d.creations ++ [creation] }

/-- Drops the creations, the default one included. -/
def clearCreations (d : Description) : Description :=
  { d with creations := [], creationDefault? := none }

/-- Adds a property to the table. -/
def addProperty (d : Description) (p : Property) : Description :=
  { d with table := d.table.add p }

/-- Applies an override, or keeps it until its property is added. -/
def configure (d : Description) (o : PropertyOverride) : Description :=
  { d with table := d.table.configure o }

/-- Ends the waiting for properties: overrides without one are dropped. -/
def joinProperties (d : Description) : Description := { d with table := d.table.join }

/-- Changes the first constructor with a signature. -/
def updateConstructor (d : Description) (signature : String)
    (change : Constructor → Constructor) : Description :=
  { d with constructors := updateFirst (·.signature == signature) change d.constructors }

/-- Adds a method at the end. -/
def addMethod (d : Description) (m : Method) : Description := { d with methods := d.methods ++ [m] }

/-- Changes the first method with a signature. -/
def updateMethod (d : Description) (signature : String) (change : Method → Method) :
    Description :=
  { d with methods := updateFirst (·.signature == signature) change d.methods }

/-! ## Default creation -/

/-- The source text for a value of a type. -/
def defaultValue (typeName : String) : String :=
  match typeName with
  | "boolean" => "false"
  | "byte" => "(byte) 0"
  | "char" => "'0'"
  | "short" => "(short) 0"
  | "int" => "0"
  | "long" => "0L"
  | "float" => "0.0f"
  | "double" => "0.0"
  | _ => "null"

/-- The source text that calls a constructor with default values. -/
def defaultInvocation (className : String) (constructor : ConstructorDecl) : String :=
  "new " ++ ClassName.canonical className ++ "(" ++
    ", ".intercalate (constructor.parameterTypes.map defaultValue) ++ ")"

/-- Makes the call of the shortest public constructor the default creation.  Without a public
constructor the default creation stays what metadata made it. -/
def configureDefaultCreation (d : Description) : Description :=
  match d.classDecl.shortestConstructor? with
  | some constructor =>
    let source := defaultInvocation d.componentClass constructor
    { d with creationDefault? := some { source? := some source } }
  | none => d

end Description

end ComponentCatalog
