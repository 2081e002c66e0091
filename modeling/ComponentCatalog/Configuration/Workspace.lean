import ComponentCatalog.ClassModel.Document
import ComponentCatalog.Configuration.Document
import ComponentCatalog.Resolver.Basic

/-!
# Workspaces

A workspace is a file tree with a configuration in it.  Paths in a configuration file are seen from
the folder of the file.  The class models are read when a resolver is set up; metadata is read each
time that it is asked for.
-/

set_option autoImplicit false

namespace ComponentCatalog

/-- The text of a file. -/
def FileTree.readText? (files : FileTree) (path : String) : Option String :=
  (files.read? path).bind Utf8.decodeText

/-- A file with a class model cannot be read. -/
def Failure.unreadableClassModel (path : String) : Failure :=
  ((io "IO error: cannot read the file").withOrigin .outside).withResource path

/-- Registers the classes of a file. -/
def ClassPath.addFile (cp : ClassPath) (files : FileTree) (path : String) :
    Except Failure ClassPath :=
  match files.readText? path with
  | none => .error (.unreadableClassModel path)
  | some text =>
    match cp.addDocument text with
    | .ok (_, cp) => .ok cp
    | .error f => .error (f.withResource path)

namespace Configuration

/-- Reads a configuration file. -/
def load (files : FileTree) (path : String) : Except ConfigurationError Configuration :=
  match files.readText? path with
  | none => .error .unreadable
  | some text =>
    match read text with
    | .error e => .error e
    | .ok c =>
      match Path.parent? path with
      | some folder => .ok (c.rebase folder)
      | none => .ok c

/-- The bundles of a configuration, project roots last. -/
def toBundles (c : Configuration) : List Bundle :=
  (c.bundles.map fun b ↦
    { id? := some b.id, toolkit? := b.toolkit?.map Toolkit.mk, root := .folder b.path }) ++
  c.projectRoots.map fun path ↦ { id? := none, root := .folder path }

/-- Finds resources over the bundles of a configuration. -/
def locator (c : Configuration) (files : FileTree) : Locator := .ofBundles files c.toBundles

/-- The options that a configuration chooses. -/
def options (c : Configuration) : ResolverOptions :=
  { strictMembers := c.strictMembers, cacheEnabled := c.cache.enabled,
    honorPackageMarkers := c.cache.honorPackageMarkers }

/-- The classes of a configuration's class models. -/
def classPath (c : Configuration) (files : FileTree) : Except Failure ClassPath :=
  c.classModels.foldlM (fun cp path ↦ cp.addFile files path) .root

/-- The resolver for a configuration. -/
def resolver (c : Configuration) (files : FileTree) : Except Failure Resolver :=
  match c.validate with
  | .error e => .error e.toFailure
  | .ok () =>
    (c.classPath files).map fun classPath ↦
      { classPath, locator := c.locator files, options := c.options }

end Configuration

end ComponentCatalog
