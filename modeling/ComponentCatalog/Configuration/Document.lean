import ComponentCatalog.Configuration.Basic
import ComponentCatalog.Yaml.Document
import ComponentCatalog.Yaml.Printer

/-!
# Configuration documents

A configuration is written as a YAML mapping with a version.  Fields that are not known, fields that
are written twice and fields of the wrong kind make it malformed.  Where a sequence or a mapping is
wanted, nothing at all counts as an empty one.
-/

set_option autoImplicit false

namespace ComponentCatalog

open Yaml

universe u

/-! ## Reading -/

namespace Yaml.Node

/-- A text: any scalar, however it is written. -/
def asText? : Node → Option String
  | .scalar text _ _ => some text
  | _ => none

/-- The text of a scalar that does not stand for a text.  A block can stand for something else if it
has the tag for it. -/
def untypedText? (tag : String) : Node → Option String
  | .scalar text .plain _ => some text
  | .scalar text .literal (some t) => if t = tag then some text else none
  | _ => none

/-- A truth value. -/
def asTruth? (n : Node) : Option Bool :=
  (n.untypedText? "tag:yaml.org,2002:bool").bind PlainScalar.truth?

/-- A number below `2 ^ 32`. -/
def asNatural? (n : Node) : Option Nat :=
  ((n.untypedText? "tag:yaml.org,2002:int").bind PlainScalar.natural?).filter
    fun n ↦ decide (n < Nat.pow 2 32)

/-- The items of a sequence. -/
def asItems? : Node → Option (List Node)
  | .sequence items => some items
  | .scalar "" .plain _ => some []
  | _ => none

/-- Items that can all be read. -/
def asList? {α : Type u} (read : Node → Option α) (n : Node) : Option (List α) :=
  n.asItems?.bind (·.mapM read)

/-- Whether a scalar stands for nothing; none if its tag says so and it does not. -/
def isNothing? : Node → Option Bool
  | .scalar text .plain (some tag) =>
    if tag = "tag:yaml.org,2002:null" then
      if PlainScalar.isNull text then some true else none
    else some false
  | .scalar text .plain none => some (text.isEmpty || PlainScalar.isNull text)
  | _ => some false

/-- A value that may be missing. -/
def asOptional? {α : Type u} (read : Node → Option α) (n : Node) : Option (Option α) :=
  match n.isNothing? with
  | none => none
  | some true => some none
  | some false => (read n).map some

/-- The fields of a record, if they are among `names` and none is written twice. -/
def asRecord? (names : List String) (n : Node) : Option (List (String × Node)) := do
  let entries ← match n with
    | .mapping entries => some entries
    | .scalar "" .plain _ => some []
    | _ => none
  let fields ← entries.mapM fun (key, value) ↦ key.asText?.map (·, value)
  if (fields.all fun (name, _) ↦ names.contains name) ∧
      (names.all fun name ↦ (fields.filter (·.1 == name)).length ≤ 1) then
    pure fields
  else none

end Yaml.Node

/-- A field that has to be there. -/
def requiredField {α : Type u} (fields : List (String × Node)) (name : String)
    (read : Node → Option α) : Option α := (fields.lookup name).bind read

/-- A field with a value for when it is missing. -/
def optionalField {α : Type u} (fields : List (String × Node)) (name : String) (default : α)
    (read : Node → Option α) : Option α :=
  match fields.lookup name with
  | some value => read value
  | none => some default

/-- Reads a bundle. -/
def BundleEntry.ofNode? (n : Node) : Option BundleEntry := do
  let fields ← n.asRecord? ["id", "path", "toolkit"]
  pure {
    id := ← requiredField fields "id" (·.asText?)
    path := ← requiredField fields "path" (·.asText?)
    toolkit? := ← optionalField fields "toolkit" none (·.asOptional? (·.asText?)) }

/-- Reads the choices for keeping descriptions. -/
def CacheOptions.ofNode? (n : Node) : Option CacheOptions := do
  let fields ← n.asRecord? ["enabled", "honor_package_markers"]
  pure {
    enabled := ← requiredField fields "enabled" (·.asTruth?)
    honorPackageMarkers := ← requiredField fields "honor_package_markers" (·.asTruth?) }

namespace Configuration

/-- Reads a configuration with its version. -/
def ofNode? (n : Node) : Option (Option Nat × Configuration) := do
  let fields ← n.asRecord?
    ["version", "bundles", "project_roots", "class_models", "cache", "strict_members"]
  let version? ← optionalField fields "version" none (·.asOptional? (·.asNatural?))
  let cache? ← optionalField fields "cache" none (·.asOptional? CacheOptions.ofNode?)
  let strict? ← optionalField fields "strict_members" none (·.asOptional? (·.asTruth?))
  pure (version?, {
    bundles := ← optionalField fields "bundles" [] (·.asList? BundleEntry.ofNode?)
    projectRoots := ← optionalField fields "project_roots" [] (·.asList? (·.asText?))
    classModels := ← optionalField fields "class_models" [] (·.asList? (·.asText?))
    cache := cache?.getD {}
    strictMembers := strict?.getD false })

/-- The versions of the format. -/
def supportedVersions : List Nat := [1]

/-- Reads a valid configuration. -/
def ofNode (n : Node) : Except ConfigurationError Configuration :=
  match ofNode? n with
  | none => .error .malformed
  | some (none, _) => .error .missingVersion
  | some (some version, c) =>
    if supportedVersions.contains version then
      match c.validate with
      | .ok () => .ok c
      | .error e => .error e
    else .error (.unsupportedVersion version supportedVersions)

/-- The valid configuration that a text writes. -/
def read (text : String) : Except ConfigurationError Configuration :=
  match Yaml.read text with
  | some n => ofNode n
  | none => .error .malformed

end Configuration

/-! ## Writing -/

/-- A field of a record. -/
def fieldNode (name : String) (value : Node) : Node × Node := (.ofText name, value)

/-- A field with a list; without items it is left out. -/
def listField (name : String) (items : List Node) : List (Node × Node) :=
  if items.isEmpty then [] else [fieldNode name (.sequence items)]

/-- Writes a bundle. -/
def BundleEntry.toNode (b : BundleEntry) : Node :=
  .mapping ([fieldNode "id" (.ofText b.id), fieldNode "path" (.ofText b.path)] ++
    (b.toolkit?.map fun toolkit ↦ fieldNode "toolkit" (.ofText toolkit)).toList)

/-- Writes the choices for keeping descriptions. -/
def CacheOptions.toNode (c : CacheOptions) : Node :=
  .mapping [fieldNode "enabled" (.ofBool c.enabled),
    fieldNode "honor_package_markers" (.ofBool c.honorPackageMarkers)]

namespace Configuration

/-- Writes a configuration.  Empty lists are left out. -/
def toNode (c : Configuration) : Node :=
  .mapping ([fieldNode "version" (.ofNat 1)] ++
    listField "bundles" (c.bundles.map (·.toNode)) ++
    listField "project_roots" (c.projectRoots.map Node.ofText) ++
    listField "class_models" (c.classModels.map Node.ofText) ++
    [fieldNode "cache" c.cache.toNode, fieldNode "strict_members" (.ofBool c.strictMembers)])

/-- The text of a configuration. -/
def write (c : Configuration) : String := c.toNode.print

end Configuration

end ComponentCatalog
