import ComponentCatalog.Description.Exposing
import ComponentCatalog.Description.Invocation

/-!
# Layer documents

What one metadata resource says, in the order in which it says it.  A layer document is not yet
compared with any class: it may speak of members that do not exist.
-/

set_option autoImplicit false

namespace ComponentCatalog

/-- The morphing targets of a layer. -/
structure MorphTargets where
  /-- Whether the targets of earlier layers are dropped. -/
  noInherit : Bool := false
  targets : List MorphingTarget := []
deriving DecidableEq

/-- A tag for several properties. -/
structure PropertyTag where
  properties : List String
  name : String
  value : String
deriving DecidableEq

/-- A property made of a method. -/
structure MethodProperty where
  title : String
  /-- The signature of the method. -/
  method : String
  /-- Whether the method has the value of the property as its one parameter. -/
  single : Bool
  /-- What the declaration sets for the property. -/
  override? : Option PropertyOverride := none
deriving DecidableEq

/-- What a layer says of the parameters of a constructor. -/
structure ConstructorNote where
  parameters : List Parameter := []
deriving DecidableEq

/-- What a layer says of a method. -/
structure MethodNote where
  name : String
  order? : Option MethodOrder := none
  parameters : List Parameter := []
  tags : Tags := .empty
deriving DecidableEq

/-- An operation on the set of methods: includes or excludes those whose signatures match. -/
structure MethodOperation where
  includes : Bool
  pattern : String
deriving DecidableEq

/-- What a layer says of the order of methods. -/
structure MethodOrders where
  default? : Option MethodOrder := none
  /-- Orders by the signatures of methods. -/
  methods : List (String × MethodOrder) := []
deriving DecidableEq

/-- What one metadata resource says. -/
structure LayerDocument where
  toolkit? : Option String := none
  modelClass? : Option String := none
  order? : Option String := none
  description? : Option String := none
  creations : List Creation := []
  creationDefault? : Option Creation := none
  morphTargets? : Option MorphTargets := none
  exposingRules : List ExposingRule := []
  /-- Whether the bean properties of the class are wanted. -/
  beanProperties : Bool := false
  /-- Whether the public fields of the class are wanted. -/
  fieldProperties : Bool := false
  /-- Categories, each with the properties that get it. -/
  categories : List (PropertyCategory × List String) := []
  /-- Properties without a default value. -/
  noDefaultValue : List String := []
  propertyTags : List PropertyTag := []
  methodProperties : List MethodProperty := []
  constructors : List ConstructorNote := []
  methods : List MethodNote := []
  methodOperations : List MethodOperation := []
  methodOrders : MethodOrders := {}
  parameters : NameMap String := .empty
  overrides : List PropertyOverride := []
  configurableProperties : List Property := []
deriving DecidableEq

/-- The types of the parameters. -/
def ConstructorNote.parameterTypes (n : ConstructorNote) : List String :=
  n.parameters.map (·.typeName)

/-- The signature of the constructor. -/
def ConstructorNote.signature (n : ConstructorNote) : String :=
  Signature.of Signature.constructorName n.parameterTypes

/-- The types of the parameters. -/
def MethodNote.parameterTypes (n : MethodNote) : List String := n.parameters.map (·.typeName)

/-- The signature of the method. -/
def MethodNote.signature (n : MethodNote) : String := Signature.of n.name n.parameterTypes

end ComponentCatalog
