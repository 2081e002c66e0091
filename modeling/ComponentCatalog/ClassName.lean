import ComponentCatalog.Text.LetterCase

/-!
# Class names

A class is known by its binary name: packages end in dots, and the name of a nested class follows
the name of the class around it after a dollar sign, as in `a.b.Outer$Inner`.
-/

set_option autoImplicit false

namespace ComponentCatalog

namespace ClassName

/-- The class at the root of every hierarchy. -/
def object : String := "java.lang.Object"

/-- The part of a name before its last dot; empty for a name without one. -/
def package (name : String) : String :=
  String.ofList ((name.toList.reverse.dropWhile (· != '.')).drop 1).reverse

/-- The part of a name after its last dot. -/
def short (name : String) : String :=
  String.ofList (name.toList.reverse.takeWhile (· != '.')).reverse

/-- The text with every `old` replaced by `new`. -/
def replace (old new : Char) (text : String) : String :=
  String.ofList (text.toList.map fun c ↦ if c = old then new else c)

/-- The name as it is written in source text: nesting is a dot, too. -/
def canonical (name : String) : String := replace '$' '.' name

/-- The path of a class below a class-path root, without an extension. -/
def resourcePath (name : String) : String := replace '.' '/' name

/-- Whether a name is that of an anonymous class: what follows its first dollar sign is a number. -/
def isAnonymous (name : String) : Bool :=
  match name.toList.dropWhile (· != '$') with
  | [] => false
  | _ :: inner => !inner.isEmpty && inner.all Char.isDigit

/-- The name of the bean property behind a setter's suffix: `Text` gives `text`.  Of a name that
starts with two capitals nothing changes, so `URL` gives `URL`. -/
def decapitalize (name : String) : String :=
  match name.toList with
  | [] => ""
  | [c] => String.ofList (LetterCase.lower c)
  | c :: d :: rest =>
    if LetterCase.isUpper c && LetterCase.isUpper d then name
    else String.ofList (LetterCase.lower c ++ d :: rest)

end ClassName

namespace Signature

/-- The signature of a member: its name and the types of its parameters, as in
`setText(java.lang.String)`. -/
def of (name : String) (types : List String) : String :=
  name ++ "(" ++ ",".intercalate types ++ ")"

/-- The name under which constructors stand in signatures. -/
def constructorName : String := "<init>"

/-- The signature with its brackets and commas made underscores, so that it can stand in the name
of a file: `setText_java.lang.String_`. -/
def normalize (signature : String) : String :=
  String.ofList (signature.toList.map fun c ↦
    if c = '(' ∨ c = ',' ∨ c = ')' then '_' else c)

end Signature

end ComponentCatalog
