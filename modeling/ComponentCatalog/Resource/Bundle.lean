import ComponentCatalog.ClassName
import ComponentCatalog.Resource.FileTree

/-!
# Bundles and the resources in them

Metadata files, icons and marker files come in bundles.  A bundle has an identifier and may name
the toolkit of its components; a project root is a bundle without an identifier.  Its files are in
a folder or held in memory.

A `Locator` finds resources over a list of bundles, the **first bundle that has a path** giving the
resource.  No path with a segment `..` is ever found.
-/

set_option autoImplicit false

namespace ComponentCatalog

/-- The family of user-interface libraries that a component belongs to. -/
structure Toolkit where
  id : String
deriving DecidableEq, Repr

/-- Where the bytes of a resource are. -/
inductive Location where
  /-- In a file; nothing if the file cannot be read. -/
  | file (path : String) (content? : Option Bytes)
  | memory (content : Bytes)
deriving DecidableEq, Repr

/-- A resource that was found. -/
structure Resource where
  /-- The path that was looked for. -/
  path : String
  /-- The identifier of the bundle, unless it is a project root. -/
  bundle? : Option String
  /-- The toolkit of the bundle. -/
  toolkit? : Option Toolkit
  location : Location
deriving DecidableEq, Repr

/-- An icon image. -/
structure Icon where
  path : String
  bundle? : Option String
deriving DecidableEq, Repr

namespace Resource

/-- The bytes of the resource, if they can be read. -/
def content? (r : Resource) : Option Bytes :=
  match r.location with
  | .file _ content? => content?
  | .memory content => some content

/-- Where the resource is, in words: the path of its file, or its bundle and path. -/
def describe (r : Resource) : String :=
  match r.location, r.bundle? with
  | .file path _, _ => path
  | .memory _, some bundle => bundle ++ ":" ++ r.path
  | .memory _, none => r.path

/-- The resource as an icon. -/
def toIcon (r : Resource) : Icon := { path := r.path, bundle? := r.bundle? }

end Resource

/-! ## Bundles -/

/-- Where the files of a bundle are. -/
inductive BundleRoot where
  | folder (path : String)
  | memory (entries : NameMap Bytes)

/-- A root of metadata files. -/
structure Bundle where
  id? : Option String
  toolkit? : Option Toolkit := none
  root : BundleRoot

namespace Bundle

/-- Where the file at a path of the bundle is. -/
def locate (files : FileTree) (b : Bundle) (path : String) : Option Location :=
  if (Path.segments path).contains ".." then none
  else
    match b.root with
    | .folder root =>
      let file := Path.join root path
      (files.read? file).map fun content ↦ .file file (some content)
    | .memory entries => (entries.get? path).map .memory

/-- The paths of the bundle that end with `suffix`, in ascending order. -/
def entriesWithSuffix (files : FileTree) (b : Bundle) (suffix : String) : List String :=
  let paths := match b.root with
    | .folder root => files.filesBelow root
    | .memory entries => entries.names
  paths.filter fun path ↦ suffix.toList.isSuffixOf path.toList

/-- The resource at a path of the bundle. -/
def resource? (files : FileTree) (b : Bundle) (path : String) : Option Resource :=
  (b.locate files path).map fun location ↦
    { path, bundle? := b.id?, toolkit? := b.toolkit?, location }

end Bundle

/-! ## Finding resources -/

/-- A way to find resources, and files of bundles that are given by their identifiers. -/
structure Locator where
  find? : String → Option Resource
  hasEntry : String → String → Bool

namespace Locator

/-- Looks through bundles in order. -/
def ofBundles (files : FileTree) (bundles : List Bundle) : Locator where
  find? path := bundles.findSome? fun b ↦ b.resource? files path
  hasEntry id path :=
    bundles.any fun b ↦ b.id? == some id && (b.locate files path).isSome

/-- The extensions of icon images, in the order in which they are tried. -/
def iconExtensions : List String := ["png", "gif"]

/-- The icon beside a class, its name followed by `suffix`. -/
def findIcon (l : Locator) (className suffix : String) : Option Icon :=
  iconExtensions.findSome? fun extension ↦
    (l.find? (ClassName.resourcePath className ++ suffix ++ "." ++ extension)).map (·.toIcon)

end Locator

end ComponentCatalog
