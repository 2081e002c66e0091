import ComponentCatalog.Failure
import ComponentCatalog.Resource.Path
import ComponentCatalog.Text.Blank

/-!
# Configurations

A configuration names the bundles with metadata, the roots of the project's own resources and the
files with class models, and makes some choices.  It is valid when its bundles have identifiers that
are not blank and differ from one another, and no toolkit that is given is blank.
-/

set_option autoImplicit false

namespace ComponentCatalog

/-- A folder with metadata. -/
structure BundleEntry where
  id : String
  path : String
  toolkit? : Option String := none
deriving DecidableEq, Repr

/-- Choices for keeping descriptions. -/
structure CacheOptions where
  /-- Whether descriptions of classes are kept for a session. -/
  enabled : Bool := true
  /-- Whether a description is kept beyond a session only where its package has the marker. -/
  honorPackageMarkers : Bool := true
deriving DecidableEq, Repr

/-- What a resolver is set up with. -/
structure Configuration where
  /-- The bundles in the order in which they are searched. -/
  bundles : List BundleEntry := []
  /-- Folders with resources of the project itself, searched after the bundles. -/
  projectRoots : List String := []
  /-- Files with class models. -/
  classModels : List String := []
  cache : CacheOptions := {}
  /-- Whether metadata must name no members that a component does not have. -/
  strictMembers : Bool := false
deriving DecidableEq, Repr

/-! ## Errors -/

/-- What can be wrong with a configuration. -/
inductive ConfigurationError where
  | missingVersion
  | unsupportedVersion (found : Nat) (supported : List Nat)
  /-- A field has a value that is not allowed. -/
  | invalid (field reason : String)
  /-- The file cannot be read. -/
  | unreadable
  /-- The text is no document of the format. -/
  | malformed
  | custom (message : String)
deriving DecidableEq, Repr

namespace ConfigurationError

/-- The error in words. -/
def message : ConfigurationError → String
  | missingVersion =>
    "Missing 'version' field in configuration file. Add 'version: 1' to the top of your YAML file."
  | unsupportedVersion found supported =>
    "Unsupported configuration version " ++ toString found ++ ". Supported versions: " ++
      ", ".intercalate (supported.map toString)
  | invalid field reason => "Invalid value for '" ++ field ++ "': " ++ reason
  | unreadable => "IO error: cannot read the file"
  | malformed => "YAML parsing error: not a configuration"
  | custom message => message

/-- The error as a failure of the catalog. -/
def toFailure (e : ConfigurationError) : Failure :=
  (Failure.config e.message).withOrigin .configuration

end ConfigurationError

namespace Configuration

/-! ## Validation -/

/-- What is wrong with a field of the bundle at an index. -/
def invalidBundle (index : Nat) (field reason : String) : ConfigurationError :=
  .invalid ("bundles[" ++ toString index ++ "]." ++ field) reason

/-- What is wrong with the bundle at an index, after bundles with the identifiers `seen`. -/
def bundleError? (seen : List String) (index : Nat) (b : BundleEntry) :
    Option ConfigurationError :=
  if Text.isBlankText b.id then some (invalidBundle index "id" "must not be empty")
  else if seen.contains b.id then
    some (invalidBundle index "id" ("duplicate bundle id '" ++ b.id ++ "'"))
  else if (b.toolkit?.map Text.isBlankText).getD false then
    some (invalidBundle index "toolkit" "must not be blank")
  else none

/-- What is wrong with the first wrong bundle, after bundles with the identifiers `seen`. -/
def bundlesError? (seen : List String) (index : Nat) : List BundleEntry → Option ConfigurationError
  | [] => none
  | b :: rest => (bundleError? seen index b).or (bundlesError? (b.id :: seen) (index + 1) rest)

/-- Refuses a configuration that is not valid. -/
def validate (c : Configuration) : Except ConfigurationError Unit :=
  match bundlesError? [] 0 c.bundles with
  | some e => .error e
  | none => .ok ()

/-! ## Paths -/

/-- The configuration with its relative paths as seen from a folder. -/
def rebase (c : Configuration) (folder : String) : Configuration :=
  { c with
    bundles := c.bundles.map fun b ↦ { b with path := Path.join folder b.path }
    projectRoots := c.projectRoots.map (Path.join folder)
    classModels := c.classModels.map (Path.join folder) }

/-- Every path that is named. -/
def paths (c : Configuration) : List String :=
  c.bundles.map (·.path) ++ c.projectRoots ++ c.classModels

end Configuration

end ComponentCatalog
