import ComponentCatalog.Resolver.Cache
import ComponentCatalog.Resolver.Resolution

/-!
# Sessions

In a session descriptions are asked for one after the other, and those of classes are kept for the
next time.  A class without a context is described as the class that metadata can name: an anonymous
class shares the description of its superclass.

A component in a context has a description of its own where there is metadata for the context, and
shares the description of its class otherwise.
-/

set_option autoImplicit false

namespace ComponentCatalog

/-- The state of a session. -/
structure Session where
  cache : Cache := {}
  /-- How many descriptions were made so far. -/
  resolutions : Nat := 0

/-- What is done in a session.  The session goes on after a failure. -/
abbrev InSession := ExceptT Failure (StateM Session)

namespace Session

/-- Looks up a class in the cache. -/
def lookUp (className : String) : InSession (Option SharedDescription) :=
  modifyGet fun s ↦
    let (found?, cache) := s.cache.get className
    (found?, { s with cache })

/-- Gives a description that was just made its number. -/
def share (description : Description) : InSession SharedDescription :=
  modifyGet fun s ↦
    ({ description, resolution := s.resolutions }, { s with resolutions := s.resolutions + 1 })

/-- Keeps a description, and gives the one that is kept. -/
def keep (shared : SharedDescription) : InSession SharedDescription :=
  modifyGet fun s ↦
    let (kept, cache) := s.cache.insert shared
    (kept, { s with cache })

/-- Ends the session; descriptions that are marked to stay are there in the next. -/
def invalidate (s : Session) : Session := { s with cache := s.cache.endSession }

end Session

namespace Resolver

/-- Makes a description. -/
def make (r : Resolver) (key : Key) (c : ClassDecl) (additional : List LayerResource) :
    InSession SharedDescription := do
  Session.share (← r.resolve key c additional)

/-- The description of a class without a context. -/
def describeClass (r : Resolver) (c : ClassDecl) : InSession SharedDescription := do
  let c ← r.classPath.normalize c
  if r.options.cacheEnabled then
    match ← Session.lookUp c.name with
    | some shared => pure shared
    | none => Session.keep (← r.make (.pure c.name) c [])
  else r.make (.pure c.name) c []

/-- The description of the class with a name. -/
def describe (r : Resolver) (className : String) : InSession SharedDescription := do
  r.describeClass (← r.classPath.load className)

/-- The description of a class in the context of a key. -/
def describeInContext (r : Resolver) (key : Key) : InSession SharedDescription := do
  let c ← r.classPath.load key.componentClass
  match r.contextLayer? key with
  | some layer => r.make key c [layer]
  | none => r.describeClass c

/-- The description of what a factory method creates. -/
def describeFactory (r : Resolver) (f : FactoryMethod) : InSession SharedDescription :=
  r.describeInContext f.key

/-- The description of a child of class `returnClass` that a host exposes by a method. -/
def describeExposed (r : Resolver) (host : Description) (method returnClass : String) :
    InSession SharedDescription :=
  r.describeInContext (.contextual returnClass host.key method)

/-- The description of a parameter of a host's method. -/
def describeParameter (r : Resolver) (host : Description) (p : ParameterPlace) :
    InSession SharedDescription := do
  let c ← r.classPath.load p.typeName
  match ← r.parameterLayers host p with
  | [] => r.describeClass c
  | layers => r.make (p.key host.key) c layers

end Resolver

end ComponentCatalog
