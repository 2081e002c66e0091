import ComponentCatalog.ClassName

/-!
# Class declarations

What the catalog knows of a class: its superclass and interfaces, its constructors, methods and
fields, and the texts of its bean descriptor.  Classes are named by their binary names, types of
parameters and fields as in source text (`int`, `java.lang.String`, `int[]`).
-/

set_option autoImplicit false

namespace ComponentCatalog

/-- Who can use a member. -/
inductive Visibility where
  | everyone
  | subclasses
  | samePackage
  | declaringClass
deriving DecidableEq, Repr

/-- A constructor as its class declares it. -/
structure ConstructorDecl where
  parameterTypes : List String := []
  visibility : Visibility := .everyone
deriving DecidableEq, Repr

/-- A method as its class declares it. -/
structure MethodDecl where
  name : String
  parameterTypes : List String := []
  returnType : String := "void"
  visibility : Visibility := .everyone
  isStatic : Bool := false
deriving DecidableEq, Repr

/-- A field as its class declares it. -/
structure FieldDecl where
  name : String
  typeName : String
  visibility : Visibility := .everyone
  isStatic : Bool := false
  isFinal : Bool := false
deriving DecidableEq, Repr

/-- A class of the project. -/
structure ClassDecl where
  name : String
  superclass? : Option String := none
  interfaces : List String := []
  isInterface : Bool := false
  constructors : List ConstructorDecl := []
  methods : List MethodDecl := []
  fields : List FieldDecl := []
  /-- The display name of the bean descriptor. -/
  displayName? : Option String := none
  /-- The short description of the bean descriptor. -/
  shortDescription? : Option String := none
deriving DecidableEq, Repr

/-- The signature of a constructor, as in `<init>(int)`. -/
def ConstructorDecl.signature (c : ConstructorDecl) : String :=
  Signature.of Signature.constructorName c.parameterTypes

namespace MethodDecl

/-- The signature of a method, as in `setText(java.lang.String)`. -/
def signature (m : MethodDecl) : String := Signature.of m.name m.parameterTypes

/-- Whether everyone can call the method on an instance. -/
def isPublicInstance (m : MethodDecl) : Bool := m.visibility = .everyone && !m.isStatic

end MethodDecl

/-- Whether everyone can set the field of an instance. -/
def FieldDecl.isPublicVariable (f : FieldDecl) : Bool :=
  f.visibility = .everyone && !f.isStatic && !f.isFinal

namespace ClassDecl

/-- A class without members that extends the root class. -/
def ofName (name : String) : ClassDecl :=
  { name, superclass? := if name = ClassName.object then none else some ClassName.object }

/-- An interface without members. -/
def interface (name : String) : ClassDecl := { name, isInterface := true }

/-- The class with another superclass. -/
def extending (c : ClassDecl) (superclass : String) : ClassDecl :=
  { c with superclass? := some superclass }

/-- The class with one more interface. -/
def implementing (c : ClassDecl) (interface : String) : ClassDecl :=
  { c with interfaces := c.interfaces ++ [interface] }

/-- The class with one more public constructor. -/
def withConstructor (c : ClassDecl) (parameterTypes : List String) : ClassDecl :=
  { c with constructors := c.constructors ++ [{ parameterTypes }] }

/-- The class with one more public method. -/
def withMethod (c : ClassDecl) (name : String) (parameterTypes : List String)
    (returnType : String) : ClassDecl :=
  { c with methods := c.methods ++ [{ name, parameterTypes, returnType }] }

/-- The class with one more public field. -/
def withField (c : ClassDecl) (name typeName : String) : ClassDecl :=
  { c with fields := c.fields ++ [{ name, typeName }] }

/-- The first method with a signature. -/
def findMethod? (c : ClassDecl) (signature : String) : Option MethodDecl :=
  c.methods.find? (·.signature == signature)

/-- The first constructor with a signature. -/
def findConstructor? (c : ClassDecl) (signature : String) : Option ConstructorDecl :=
  c.constructors.find? (·.signature == signature)

/-- Of some constructors the first with the fewest parameters. -/
def fewestParameters : List ConstructorDecl → Option ConstructorDecl
  | [] => none
  | c :: rest =>
    match fewestParameters rest with
    | some best => some (if best.parameterTypes.length < c.parameterTypes.length then best else c)
    | none => some c

/-- The public constructor with the fewest parameters, the first declared of several. -/
def shortestConstructor? (c : ClassDecl) : Option ConstructorDecl :=
  fewestParameters (c.constructors.filter (·.visibility = .everyone))

end ClassDecl

end ComponentCatalog
