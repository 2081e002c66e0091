import ComponentCatalog.CommandLine.Arguments
import ComponentCatalog.CommandLine.Output
import ComponentCatalog.Configuration.Workspace
import ComponentCatalog.Resolver.Session

/-!
# Running commands

A command reads files and gives an output.  It ends with 0 if all is well, with 1 after a failure,
and with 2 if its arguments are not as they should be.  There is no output unless all is well.

A command that has to search for ever does not end by itself, and then has no exit code.
-/

set_option autoImplicit false

namespace ComponentCatalog

/-- How a command ended. -/
structure CommandResult where
  /-- None if the command was broken off. -/
  exitCode? : Option Nat
  output : String := ""
  /-- What the user is told when something is wrong. -/
  complaint : String := ""
deriving DecidableEq, Repr

namespace CommandResult

/-- All is well. -/
def success (output : String) : CommandResult := { exitCode? := some 0, output }

/-- Something failed. -/
def failure (reason : String) : CommandResult :=
  { exitCode? := some 1, complaint := reason ++ "\n" }

/-- The arguments are not as they should be. -/
def usage : CommandResult := { exitCode? := some 2, complaint := Invocation.usage ++ "\n" }

/-- The stack is used up. -/
def brokenOff : CommandResult := { exitCode? := none, complaint := "stack overflow\n" }

end CommandResult

namespace Command

/-- Runs a command with a configuration. -/
def run (files : FileTree) (c : Configuration) : Command → CommandResult
  | list => .success (Output.metadata files c.toBundles)
  | describe className format factory? =>
    match c.resolver files with
    | .error f => .failure f.display
    | .ok r =>
      let action := match factory? with
        | some (declaringClass, signature) =>
          r.describeFactory { declaringClass, signature, returnClass := className }
        | none => r.describe className
      match (action.run.run {}).1 with
      | .error f => if f.isEndless then .brokenOff else .failure f.display
      | .ok shared =>
        match format with
        | .json => .success (Output.json shared.description)
        | .text => .success (Output.summary shared.description)

end Command

namespace Invocation

/-- Does what the program is asked to do. -/
def run (files : FileTree) (i : Invocation) : CommandResult :=
  match Configuration.load files i.configuration with
  | .error e => .failure e.message
  | .ok c => i.command.run files c

end Invocation

/-- Runs the program on some files with some arguments. -/
def runProgram (files : FileTree) (args : List String) : CommandResult :=
  match Invocation.ofArguments? args with
  | some i => i.run files
  | none => .usage

end ComponentCatalog
