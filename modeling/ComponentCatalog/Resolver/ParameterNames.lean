import ComponentCatalog.Resolver.Basic

/-!
# Names of parameters

Metadata need not name the parameters of constructors and methods.  Missing names are looked up
once for each constructor or method; when they cannot be found they stay missing.
-/

set_option autoImplicit false

namespace ComponentCatalog

/-- The parameter with its name from a list of names, unless it has one. -/
def Parameter.fillName (names : List String) (p : Parameter) : Parameter :=
  { p with name? := p.name?.or names[p.index]? }

namespace Resolver

/-- The parameters of a member with their names as far as they can be found. -/
def fillNames (r : Resolver) (declaringClass signature : String) (parameters : List Parameter) :
    List Parameter :=
  match r.parameterNames? with
  | none => parameters
  | some provider =>
    match provider declaringClass signature with
    | .ok (some names) => parameters.map (·.fillName names)
    | .ok none => parameters
    | .error _ => parameters

/-- Looks up the names of a constructor's parameters, if that was not done yet. -/
def initializeConstructor (r : Resolver) (c : Constructor) : Constructor :=
  if c.initialized then c
  else { c with
    initialized := true, parameters := r.fillNames c.declaringClass c.signature c.parameters }

/-- Looks up the names of a method's parameters, if that was not done yet. -/
def initializeMethod (r : Resolver) (m : Method) : Method :=
  if m.initialized then m
  else { m with
    initialized := true, parameters := r.fillNames m.declaringClass m.signature m.parameters }

end Resolver

end ComponentCatalog
