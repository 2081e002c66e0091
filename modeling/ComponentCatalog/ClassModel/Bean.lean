import ComponentCatalog.ClassModel.Basic
import ComponentCatalog.NameMap

/-!
# Members of a hierarchy

The methods, fields and bean properties that the instances of a class have, given its hierarchy
with the class itself first.  Of members that one class inherits and redeclares the **redeclaration
counts**, because it stands first.

A bean property stands for a public method `setX(T)` without a result.  Its getter is a public
method without parameters that gives exactly a `T` and is called `getX`, or `isX` for a boolean.
-/

set_option autoImplicit false

namespace ComponentCatalog

universe u

/-- The members of a list, each key once, at its first place. -/
def firstOfEach {α : Type u} (key : α → String) : List α → List α
  | [] => []
  | a :: rest => a :: (firstOfEach key rest).filter fun b ↦ key b != key a

namespace Hierarchy

/-- The public instance methods, each signature once, with the classes that declare them. -/
def publicMethods (hierarchy : List ClassDecl) : List (String × MethodDecl) :=
  firstOfEach (·.2.signature)
    ((hierarchy.flatMap fun c ↦ c.methods.map (c.name, ·)).filter (·.2.isPublicInstance))

/-- The public instance methods among some whose signatures are not in `seen`, each signature
once. -/
def newMethods (seen : List String) : List MethodDecl → List MethodDecl
  | [] => []
  | m :: rest =>
    if m.isPublicInstance && !seen.contains m.signature then
      m :: newMethods (m.signature :: seen) rest
    else newMethods seen rest

/-- The public instance methods, each signature once. -/
def methods (hierarchy : List ClassDecl) : List MethodDecl :=
  newMethods [] (hierarchy.flatMap (·.methods))

/-- The first class whose method of a signature is a public instance method, with the method. -/
def findMethod? (hierarchy : List ClassDecl) (signature : String) : Option (String × MethodDecl) :=
  hierarchy.findSome? fun c ↦
    ((c.findMethod? signature).filter (·.isPublicInstance)).map (c.name, ·)

/-- The public fields that can be set, each name once. -/
def fields (hierarchy : List ClassDecl) : List FieldDecl :=
  firstOfEach (·.name) ((hierarchy.flatMap (·.fields)).filter (·.isPublicVariable))

end Hierarchy

/-- A property behind a public setter. -/
structure BeanProperty where
  name : String
  typeName : String
  /-- The signature of the setter. -/
  setter : String
  /-- The name of the getter. -/
  getter? : Option String
deriving DecidableEq, Repr

/-- The name of a setter without its first three letters, and the type of its parameter. -/
def MethodDecl.setterOf? (m : MethodDecl) : Option (String × String) :=
  match m.name.toList, m.parameterTypes with
  | 's' :: 'e' :: 't' :: c :: suffix, [typeName] =>
    if m.returnType = "void" then some (String.ofList (c :: suffix), typeName) else none
  | _, _ => none

/-- Whether a method is a getter for what a setter with this suffix and type sets. -/
def MethodDecl.isGetterOf (m : MethodDecl) (suffix typeName : String) : Bool :=
  m.parameterTypes.isEmpty && m.returnType == typeName &&
    (m.name == "get" ++ suffix || typeName == "boolean" && m.name == "is" ++ suffix)

namespace BeanProperty

/-- The property behind a method, if it is a setter; getters are sought in `methods`. -/
def ofMethod? (methods : List MethodDecl) (m : MethodDecl) : Option BeanProperty :=
  m.setterOf?.map fun (suffix, typeName) ↦
    { name := ClassName.decapitalize suffix
      typeName
      setter := m.signature
      getter? := (methods.find? (·.isGetterOf suffix typeName)).map (·.name) }

/-- Adds a property unless its name is taken. -/
def addNew (found : NameMap BeanProperty) (p : BeanProperty) : NameMap BeanProperty :=
  if found.contains p.name then found else found.insert p.name p

/-- The bean properties of a hierarchy in ascending order of their names. -/
def ofHierarchy (hierarchy : List ClassDecl) : List BeanProperty :=
  let methods := Hierarchy.methods hierarchy
  ((methods.filterMap (ofMethod? methods)).foldl addNew .empty).values

end BeanProperty

end ComponentCatalog
