import ComponentCatalog.Resource.Layer

/-!
# Description keys

A description is known by its key.  A pure key is a class.  A contextual key stands for a class in
a context: what a factory method creates, what a method of a host exposes, or a parameter of a
host's method.  It is the key of the host with a suffix, and **the key alone determines the path**
of the metadata resource:

* `a.b.Button` is described in `a/b/Button.wbp-component.xml`,
* what `create(int)` of `a.Factory` creates, in `a/Factory.create_int_.wbp-component.xml`.
-/

set_option autoImplicit false

namespace ComponentCatalog

/-- What a description is known by. -/
inductive Key where
  | pure (componentClass : String)
  | contextual (componentClass : String) (host : Key) (suffix : String)
deriving DecidableEq, Repr

namespace Key

/-- The class that is described. -/
def componentClass : Key → String
  | pure c => c
  | contextual c _ _ => c

/-- The key of the context, of a contextual key. -/
def host? : Key → Option Key
  | pure _ => none
  | contextual _ host _ => some host

/-- The suffix of a contextual key. -/
def suffix? : Key → Option String
  | pure _ => none
  | contextual _ _ suffix => some suffix

/-- Whether the key is a class without a context. -/
def isPure : Key → Bool
  | pure _ => true
  | contextual .. => false

/-- The class of a pure key; the name of the host and the suffix of a contextual one. -/
def name : Key → String
  | pure c => c
  | contextual _ host suffix => host.name ++ "." ++ suffix

/-- The path of the metadata resource without its extension. -/
def resourcePath : Key → String
  | pure c => ClassName.resourcePath c
  | contextual _ host suffix => host.resourcePath ++ "." ++ suffix

/-- The path of the metadata resource. -/
def descriptionPath (key : Key) : String := metadataPath key.resourcePath

end Key

end ComponentCatalog
