import ComponentCatalog.Layer.Reading
import ComponentCatalog.Layer.StandardRules
import ComponentCatalog.Composition.Layer

/-!
# Resolvers

A resolver puts descriptions together.  It has a class path, a way to find resources, the rules for
layers, and what its user adds to them: processors, which finish each description, and a provider
for the names of parameters.
-/

set_option autoImplicit false

namespace ComponentCatalog

/-- Choices for a resolver. -/
structure ResolverOptions where
  /-- Whether metadata must name no members that a component does not have. -/
  strictMembers : Bool := false
  /-- Whether descriptions of classes are kept for a session. -/
  cacheEnabled : Bool := true
  /-- Whether a description is kept beyond a session only where its package has the marker. -/
  honorPackageMarkers : Bool := true
deriving DecidableEq, Repr

/-- A last step for every description. -/
structure Processor where
  name : String
  process : Description → Except Failure Description

/-- Gives the names of the parameters of a member, by the class that declares it and its signature;
nothing if they are not known. -/
abbrev NameProvider := String → String → Except Failure (Option (List String))

/-- Puts descriptions together. -/
structure Resolver where
  classPath : ClassPath
  locator : Locator
  rules : List Rule := standardRules
  processors : List Processor := []
  parameterNames? : Option NameProvider := none
  options : ResolverOptions := {}

/-! ## Contexts -/

/-- A factory method that creates a component. -/
structure FactoryMethod where
  declaringClass : String
  signature : String
  /-- The class of what the method creates. -/
  returnClass : String

/-- A parameter of a method that is a component. -/
structure ParameterPlace where
  /-- The signature of the method. -/
  method : String
  index : Nat
  /-- The class of the parameter. -/
  typeName : String

/-- The key of what a factory method creates. -/
def FactoryMethod.key (f : FactoryMethod) : Key :=
  .contextual f.returnClass (.pure f.declaringClass) (Signature.normalize f.signature)

/-- What the keys of the parameter end with: the signature of its method in plain characters, and
its index. -/
def ParameterPlace.suffix (p : ParameterPlace) : String :=
  Signature.normalize p.method ++ "." ++ toString p.index

/-- The key of the parameter in the context of a host. -/
def ParameterPlace.key (p : ParameterPlace) (host : Key) : Key :=
  .contextual p.typeName host p.suffix

end ComponentCatalog
