import ComponentCatalog.CommandLine.Run

/-!
# The program

Takes a picture of the files that a command can ask for, runs the command on it, prints what the
command says and ends with its exit code.  Files that cannot be read are not in the picture.

A command that was broken off ends as a shell tells of it: 134, which is 128 and the number of the
signal.
-/

set_option autoImplicit false

namespace ComponentCatalog.Snapshot

/-- The content of a file, if it can be read. -/
def fileContent? (path : String) : IO (Option Bytes) := do
  try return some (← IO.FS.readBinFile path).toList catch _ => return none

/-- The names of what is in a folder, if there is such a folder. -/
def folderContent? (path : String) : IO (Option (List String)) := do
  try
    let folder ← IO.FS.realPath path
    return some ((← folder.readDir).toList.map (·.fileName))
  catch _ => return none

/-- Adds a file, or a folder with all files in it. -/
partial def add (tree : FileTree) (segments : List String) : IO FileTree := do
  let path := FileTree.plainPath segments
  match ← fileContent? path with
  | some content => return tree.write segments content
  | none =>
    match ← folderContent? path with
    | some names =>
      names.foldlM (fun tree name ↦ add tree (segments ++ [name])) (tree.addFolder segments)
    | none => return tree

/-- Adds the folders on the way of a path, and what the path leads to. -/
def addPath (tree : FileTree) (path : String) : IO FileTree := do
  let step : FileTree × List String → String → IO (FileTree × List String) :=
    fun (tree, here) segment ↦ do
      let known := (← folderContent? (FileTree.plainPath here)).isSome
      return (if known then tree.addFolder here else tree, FileTree.step here segment)
  let (tree, segments) ← (Path.segments path).foldlM step (tree, tree.start path)
  add tree segments

/-- The files that a command can ask for: the configuration, and what it names. -/
def take (i : Invocation) : IO FileTree := do
  let here ← IO.currentDir
  let tree : FileTree := { currentFolder := (Path.segments here.toString).filter (· ≠ "") }
  let tree ← addPath tree i.configuration
  match Configuration.load tree i.configuration with
  | .error _ => return tree
  | .ok c => c.paths.foldlM addPath tree

end ComponentCatalog.Snapshot

open ComponentCatalog in
/-- Runs the program. -/
def main (args : List String) : IO UInt32 := do
  let files ← match Invocation.ofArguments? args with
    | some i => Snapshot.take i
    | none => pure {}
  let result := runProgram files args
  IO.print result.output
  IO.eprint result.complaint
  return (result.exitCode?.getD 134).toUInt32
