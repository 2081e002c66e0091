import ComponentCatalog.Text.Wildcard

/-!
# Exposing rules

Children of a component can be exposed by its methods.  A rule includes or excludes the methods
whose declaring package and name match its patterns; of several rules that match, the **last one
counts**.
-/

set_option autoImplicit false

namespace ComponentCatalog

/-- A rule that includes or excludes methods; a missing pattern matches everything. -/
structure ExposingRule where
  includes : Bool
  package? : Option String := none
  method? : Option String := none
deriving DecidableEq, Repr

namespace ExposingRule

/-- Whether a pattern, if there is one, matches. -/
def allows (pattern? : Option String) (text : String) : Bool :=
  match pattern? with
  | some pattern => Wildcard.isMatch pattern text
  | none => true

/-- What the rule says of a method of a class in a package; nothing if it does not match. -/
def filter (r : ExposingRule) (package method : String) : Option Bool :=
  if allows r.package? package && allows r.method? method then some r.includes else none

/-- What the last matching rule says; nothing if no rule matches. -/
def lastMatch (rules : List ExposingRule) (package method : String) : Option Bool :=
  rules.reverse.findSome? (·.filter package method)

end ExposingRule

end ComponentCatalog
