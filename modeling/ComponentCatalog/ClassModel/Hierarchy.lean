import ComponentCatalog.ClassModel.ClassPath

/-!
# Class hierarchies

The chain of a class and its superclasses, and the class that metadata speaks of when a class is
anonymous.  Both walks follow superclasses and are over when they come back to a class: the first
one with a failure, the second one without any outcome.
-/

set_option autoImplicit false

namespace ComponentCatalog

/-- Whether metadata cannot name a class, so that its superclass stands for it: an anonymous class
that implements no interface. -/
def ClassDecl.isNameless (c : ClassDecl) : Bool :=
  c.interfaces.isEmpty && ClassName.isAnonymous c.name

namespace Failure

/-- The superclasses of `start` come back to `parent`. -/
def cyclicInheritance (start parent : String) : Failure :=
  (load ("cyclic inheritance through " ++ parent)).withClass start

end Failure

namespace ClassPath

/-- The superclasses of `c`, nearest first; `seen` names the classes from `start` to `c`. -/
def superclassesFrom (cp : ClassPath) (start : String) (seen : List String) (c : ClassDecl) :
    Except Failure (List ClassDecl) :=
  match c.superclass? with
  | none => .ok []
  | some parent =>
    if _ : parent ∈ seen then .error (.cyclicInheritance start parent)
    else
      match _ : cp.find? parent with
      | none => .error (.classNotFound parent)
      | some next =>
        match superclassesFrom cp start (parent :: seen) next with
        | .ok rest => .ok (next :: rest)
        | .error failure => .error failure
termination_by cp.unseen seen
decreasing_by exact unseen_lt_of_find? ‹_› ‹_›

/-- A class and its superclasses up to the root. -/
def hierarchy (cp : ClassPath) (c : ClassDecl) : Except Failure (List ClassDecl) :=
  (cp.superclassesFrom c.name [c.name] c).map (c :: ·)

/-- The first class that metadata can name, on the chain from `c`; `seen` names the superclasses
that were followed from `start` to `c`.  A nameless class without a superclass has to do for itself.

Nobody is told of nameless classes that come from themselves: to look for a class with a name on
such a chain never ends, and the failure stands for having no outcome.  It is only in
`superclassesFrom` that `cyclicInheritance` is reported. -/
def namedFrom (cp : ClassPath) (start : String) (seen : List String) (c : ClassDecl) :
    Except Failure ClassDecl :=
  if c.isNameless then
    match c.superclass? with
    | none => .ok c
    | some parent =>
      if _ : parent ∈ seen then .error (.cyclicInheritance start parent)
      else
        match _ : cp.find? parent with
        | none => .error (.classNotFound parent)
        | some next => namedFrom cp start (parent :: seen) next
  else .ok c
termination_by cp.unseen seen
decreasing_by exact unseen_lt_of_find? ‹_› ‹_›

/-- The class that metadata speaks of when it describes `c`. -/
def normalize (cp : ClassPath) (c : ClassDecl) : Except Failure ClassDecl :=
  cp.namedFrom c.name [] c

end ClassPath

end ComponentCatalog
