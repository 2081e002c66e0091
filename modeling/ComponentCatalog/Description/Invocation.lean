import ComponentCatalog.ClassModel.Basic
import ComponentCatalog.Description.Property

/-!
# Constructors, methods and their parameters

What metadata says of the constructors and methods of a component on top of what its class says.
-/

set_option autoImplicit false

namespace ComponentCatalog

/-- Where a call of a method is placed among the statements of a component. -/
inductive MethodOrder where
  | first
  | last
  | afterCreation
  | beforeAssociation
  | afterAssociation
  | afterChildren
  | afterParentChildren
deriving DecidableEq, Repr

namespace MethodOrder

/-- The word for an order. -/
def word : MethodOrder → String
  | first => "first"
  | last => "last"
  | afterCreation => "afterCreation"
  | beforeAssociation => "beforeAssociation"
  | afterAssociation => "afterAssociation"
  | afterChildren => "afterChildren"
  | afterParentChildren => "afterParentChildren"

/-- Reads an order. -/
def parse (text : String) : Except String MethodOrder :=
  match [first, last, afterCreation, beforeAssociation, afterAssociation, afterChildren,
      afterParentChildren].find? (·.word == text) with
  | some order => .ok order
  | none => .error ("unknown method order '" ++ text ++ "'")

end MethodOrder

/-- A parameter of a constructor or method. -/
structure Parameter where
  /-- The place of the parameter, from zero. -/
  index : Nat
  typeName : String
  name? : Option String := none
  /-- The source text for a value when there is no other. -/
  defaultSource? : Option String := none
  /-- Whether the parameter takes the container of the component. -/
  parent : Bool := false
  /-- Whether the parameter takes a child of the component. -/
  child : Bool := false
  parent2 : Bool := false
  child2 : Bool := false
  /-- The title of the property that the parameter is bound to. -/
  property? : Option String := none
  editor? : Option Editor := none
  tags : Tags := .empty
deriving DecidableEq

namespace Parameter

/-- The parameter with what metadata declares for it: what the declaration sets counts, flags and
tags add up, and place and type stay. -/
def enrich (p declared : Parameter) : Parameter :=
  { p with
    name? := declared.name?.or p.name?
    defaultSource? := declared.defaultSource?.or p.defaultSource?
    property? := declared.property?.or p.property?
    editor? := declared.editor?.or p.editor?
    parent := p.parent || declared.parent
    child := p.child || declared.child
    parent2 := p.parent2 || declared.parent2
    child2 := p.child2 || declared.child2
    tags := p.tags.overlay declared.tags }

/-- The plain parameters of the given types, numbered from `index`. -/
def ofTypesFrom (index : Nat) : List String → List Parameter
  | [] => []
  | typeName :: types => { index, typeName } :: ofTypesFrom (index + 1) types

/-- The plain parameters of the given types. -/
def ofTypes (types : List String) : List Parameter := ofTypesFrom 0 types

/-- Enriches parameters one by one with what is declared for them, as far as that goes. -/
def enrichEach : List Parameter → List Parameter → List Parameter
  | p :: ps, d :: ds => p.enrich d :: enrichEach ps ds
  | ps, _ => ps

end Parameter

/-- A constructor of a component. -/
structure Constructor where
  declaringClass : String
  parameters : List Parameter
  /-- Whether the names of the parameters have been looked up. -/
  initialized : Bool := false
deriving DecidableEq

/-- A method of a component. -/
structure Method where
  declaringClass : String
  name : String
  returnType : String
  parameters : List Parameter
  order? : Option MethodOrder := none
  tags : Tags := .empty
  /-- Whether the names of the parameters have been looked up. -/
  initialized : Bool := false
deriving DecidableEq

namespace Constructor

/-- A constructor of a class with parameters of the given types. -/
def ofTypes (declaringClass : String) (types : List String) : Constructor :=
  { declaringClass, parameters := Parameter.ofTypes types }

/-- The signature of a constructor. -/
def signature (c : Constructor) : String :=
  Signature.of Signature.constructorName (c.parameters.map (·.typeName))

/-- The constructor with what is declared for its parameters. -/
def enrich (c : Constructor) (declared : List Parameter) : Constructor :=
  { c with parameters := Parameter.enrichEach c.parameters declared }

end Constructor

namespace Method

/-- A method as a class declares it. -/
def ofDecl (declaringClass : String) (m : MethodDecl) : Method :=
  { declaringClass, name := m.name, returnType := m.returnType,
    parameters := Parameter.ofTypes m.parameterTypes }

/-- The signature of a method. -/
def signature (m : Method) : String := Signature.of m.name (m.parameters.map (·.typeName))

/-- The method with what is declared for its parameters. -/
def enrich (m : Method) (declared : List Parameter) : Method :=
  { m with parameters := Parameter.enrichEach m.parameters declared }

end Method

end ComponentCatalog
