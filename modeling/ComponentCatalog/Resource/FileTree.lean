import ComponentCatalog.NameMap
import ComponentCatalog.Resource.Path
import ComponentCatalog.Text.Utf8

/-!
# File trees

The files that can be read at one moment, and the folder that relative paths start from.  A file is
known by the plain form of its path: absolute, without empty segments, `.` and `..`.  A folder
exists if it holds a file or a folder, directly or further down, and **goes on existing without
its files**.
-/

set_option autoImplicit false

namespace ComponentCatalog

/-- Files by the plain forms of their paths. -/
structure FileTree where
  files : NameMap Bytes := .empty
  /-- The segments of folders that exist whatever files are in them. -/
  folders : List (List String) := []
  /-- The segments of the folder that relative paths start from. -/
  currentFolder : List String := []
deriving DecidableEq

namespace FileTree

/-- The plain form of a path, from its segments. -/
def plainPath (segments : List String) : String := "/" ++ "/".intercalate segments

/-- The part of a file's path below a folder, if the file is in it. -/
def below? (folder : List String) (file : String) : Option String :=
  (Text.afterPrefix? (if folder.isEmpty then ['/'] else (plainPath folder ++ "/").toList)
    file.toList).map String.ofList

/-- Whether there is a folder. -/
def isFolder (tree : FileTree) (folder : List String) : Bool :=
  folder.isEmpty || tree.folders.any (folder.isPrefixOf ·) ||
    tree.files.names.any fun file ↦ (below? folder file).isSome

/-- One segment further on the way of a path. -/
def step (here : List String) (segment : String) : List String :=
  if segment = "" ∨ segment = "." then here
  else if segment = ".." then here.dropLast
  else here ++ [segment]

/-- The folder that a path starts from. -/
def start (tree : FileTree) (path : String) : List String :=
  if Path.isAbsolute path then [] else tree.currentFolder

/-- One segment further on the way of a path, which has to be in a folder so far. -/
def follow (tree : FileTree) (here : List String) (segment : String) : Option (List String) :=
  if tree.isFolder here then some (step here segment) else none

/-- The segments of a path's plain form, if the path leads through folders only. -/
def resolve? (tree : FileTree) (path : String) : Option (List String) :=
  (Path.segments path).foldlM tree.follow (tree.start path)

/-- The content of the file at a path. -/
def read? (tree : FileTree) (path : String) : Option Bytes :=
  if path.isEmpty then none
  else (tree.resolve? path).bind fun segments ↦ tree.files.get? (plainPath segments)

/-- The paths, as seen from the folder, of the files in it, in ascending order; of a file instead
of a folder, the empty path. -/
def filesBelow (tree : FileTree) (path : String) : List String :=
  if path.isEmpty then []
  else
    match tree.resolve? path with
    | none => []
    | some segments =>
      if tree.files.contains (plainPath segments) then [""]
      else tree.files.names.filterMap (below? segments)

/-- The tree with a file in place of an older one at the same path. -/
def write (tree : FileTree) (segments : List String) (content : Bytes) : FileTree :=
  { tree with files := tree.files.insert (plainPath segments) content }

/-- The tree with a folder, and with the folders that it is in. -/
def addFolder (tree : FileTree) (segments : List String) : FileTree :=
  if tree.folders.contains segments then tree
  else { tree with folders := segments :: tree.folders }

/-- The tree without a file.  The folder that the file was in stays. -/
def remove (tree : FileTree) (segments : List String) : FileTree :=
  if tree.files.contains (plainPath segments) then
    { tree.addFolder segments.dropLast with
      files := tree.files.filter fun file _ ↦ file != plainPath segments }
  else tree

end FileTree

end ComponentCatalog
