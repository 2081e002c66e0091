import ComponentCatalog.Text.Split

/-!
# Paths

File paths are texts whose segments are separated by slashes.  A path that starts with a slash is
absolute; joining it to a folder gives the path itself, whatever the folder.
-/

set_option autoImplicit false

namespace ComponentCatalog.Path

/-- The segments of a path, empty ones included. -/
def segments (path : String) : List String := Text.split '/' path

/-- Whether a path starts at the root. -/
def isAbsolute (path : String) : Bool := path.toList.head? == some '/'

/-- The path as seen from a folder.  An absolute path stands for itself. -/
def join (folder path : String) : String :=
  if isAbsolute path || folder.isEmpty then path
  else if folder.toList.getLast? == some '/' then folder ++ path
  else folder ++ "/" ++ path

/-- A reversed path without the slashes and the segments `.` at its end. -/
def trimReversed : List Char → List Char
  | ['/'] => ['/']
  | '/' :: rest => trimReversed rest
  | '.' :: '/' :: rest => trimReversed ('/' :: rest)
  | cs => cs

/-- The folder of a path; the root and the empty path have none. -/
def parent? (path : String) : Option String :=
  match trimReversed path.toList.reverse with
  | [] => none
  | ['/'] => none
  | cs => some (String.ofList (trimReversed (cs.dropWhile (· != '/'))).reverse)

end ComponentCatalog.Path
