import ComponentCatalog.ClassModel.ClassPath
import ComponentCatalog.Json.Reader
import ComponentCatalog.Json.Record

/-!
# Class-model documents

A class-model document is a JSON array of classes.  Of a class only the name has to be written;
without a superclass it has none.  `ClassPath.addDocument` registers all classes of a document or,
if any part of it is wrong, none.
-/

set_option autoImplicit false

namespace ComponentCatalog

/-! ## Reading -/

namespace Visibility

/-- The word for a visibility. -/
def word : Visibility → String
  | everyone => "public"
  | subclasses => "protected"
  | samePackage => "package"
  | declaringClass => "private"

/-- The visibility that a word stands for. -/
def ofWord? (word : String) : Option Visibility :=
  [everyone, subclasses, samePackage, declaringClass].find? (·.word == word)

/-- A visibility is written as its word, or as an object whose one field, named by the word, is
null. -/
def ofJson? : Json → Option Visibility
  | .string s => ofWord? s
  | .object [(s, .null)] => ofWord? s
  | _ => none

end Visibility

/-- Reads a constructor. -/
def ConstructorDecl.ofJson? (json : Json) : Option ConstructorDecl := do
  let fields ← json.record? ["parameter_types", "visibility"]
  pure {
    parameterTypes := ← Json.withDefault fields "parameter_types" [] (Json.asList? Json.asText?)
    visibility := ← Json.withDefault fields "visibility" .everyone Visibility.ofJson? }

/-- Reads a method. -/
def MethodDecl.ofJson? (json : Json) : Option MethodDecl := do
  let fields ← json.record? ["name", "parameter_types", "return_type", "visibility", "is_static"]
  pure {
    name := ← Json.required fields "name" Json.asText?
    parameterTypes := ← Json.withDefault fields "parameter_types" [] (Json.asList? Json.asText?)
    returnType := ← Json.withDefault fields "return_type" "void" Json.asText?
    visibility := ← Json.withDefault fields "visibility" .everyone Visibility.ofJson?
    isStatic := ← Json.withDefault fields "is_static" false Json.asBool? }

/-- Reads a field. -/
def FieldDecl.ofJson? (json : Json) : Option FieldDecl := do
  let fields ← json.record? ["name", "type_name", "visibility", "is_static", "is_final"]
  pure {
    name := ← Json.required fields "name" Json.asText?
    typeName := ← Json.required fields "type_name" Json.asText?
    visibility := ← Json.withDefault fields "visibility" .everyone Visibility.ofJson?
    isStatic := ← Json.withDefault fields "is_static" false Json.asBool?
    isFinal := ← Json.withDefault fields "is_final" false Json.asBool? }

/-- Reads a class. -/
def ClassDecl.ofJson? (json : Json) : Option ClassDecl := do
  let fields ← json.record? ["name", "superclass", "interfaces", "is_interface", "constructors",
    "methods", "fields", "display_name", "short_description"]
  pure {
    name := ← Json.required fields "name" Json.asText?
    superclass? := ← Json.withDefault fields "superclass" none Json.asOptionalText?
    interfaces := ← Json.withDefault fields "interfaces" [] (Json.asList? Json.asText?)
    isInterface := ← Json.withDefault fields "is_interface" false Json.asBool?
    constructors :=
      ← Json.withDefault fields "constructors" [] (Json.asList? ConstructorDecl.ofJson?)
    methods := ← Json.withDefault fields "methods" [] (Json.asList? MethodDecl.ofJson?)
    fields := ← Json.withDefault fields "fields" [] (Json.asList? FieldDecl.ofJson?)
    displayName? := ← Json.withDefault fields "display_name" none Json.asOptionalText?
    shortDescription? := ← Json.withDefault fields "short_description" none Json.asOptionalText? }

/-- The classes of a document. -/
def ClassDecl.readDocument (text : String) : Option (List ClassDecl) :=
  (Json.read text).bind (Json.asList? ClassDecl.ofJson?)

/-- A class-model document cannot be read. -/
def Failure.classModel : Failure :=
  (config "JSON error: not a list of classes").withOrigin .outside

/-- Registers the classes of a document; the number of classes comes with the new class path. -/
def ClassPath.addDocument (cp : ClassPath) (text : String) : Except Failure (Nat × ClassPath) :=
  match ClassDecl.readDocument text with
  | some cs => .ok (cs.length, cp.addAll cs)
  | none => .error .classModel

/-! ## Writing -/

/-- Writes a constructor. -/
def ConstructorDecl.toJson (c : ConstructorDecl) : Json :=
  .object [
    ("parameter_types", .array (c.parameterTypes.map .string)),
    ("visibility", .string c.visibility.word)]

/-- Writes a method. -/
def MethodDecl.toJson (m : MethodDecl) : Json :=
  .object [
    ("name", .string m.name),
    ("parameter_types", .array (m.parameterTypes.map .string)),
    ("return_type", .string m.returnType),
    ("visibility", .string m.visibility.word),
    ("is_static", .bool m.isStatic)]

/-- Writes a field. -/
def FieldDecl.toJson (f : FieldDecl) : Json :=
  .object [
    ("name", .string f.name),
    ("type_name", .string f.typeName),
    ("visibility", .string f.visibility.word),
    ("is_static", .bool f.isStatic),
    ("is_final", .bool f.isFinal)]

/-- Writes a class with all its fields. -/
def ClassDecl.toJson (c : ClassDecl) : Json :=
  .object [
    ("name", .string c.name),
    ("superclass", .text? c.superclass?),
    ("interfaces", .array (c.interfaces.map .string)),
    ("is_interface", .bool c.isInterface),
    ("constructors", .array (c.constructors.map (·.toJson))),
    ("methods", .array (c.methods.map (·.toJson))),
    ("fields", .array (c.fields.map (·.toJson))),
    ("display_name", .text? c.displayName?),
    ("short_description", .text? c.shortDescription?)]

end ComponentCatalog
