import ComponentCatalog.Text.Split

/-!
# Command-line arguments

The program has two commands: `describe` describes a class, or what a factory method creates, and
`list` lists the metadata of the configured bundles.  The option for the configuration file stands
before the command, those of a command after it, among its other arguments.

An option is written `--name value`, `--name=value`, `-n value`, `-nvalue` or `-n=value`, and at
most once.  After `--` nothing is an option any more.
-/

set_option autoImplicit false

namespace ComponentCatalog

/-- The forms of output. -/
inductive OutputFormat where
  | json
  | text
deriving DecidableEq, Repr

/-- A command. -/
inductive Command where
  /-- Describes a class; with a factory, given by its class and the signature of its method, what
  the factory creates. -/
  | describe (className : String) (format : OutputFormat) (factory? : Option (String × String))
  /-- Lists metadata. -/
  | list
deriving DecidableEq, Repr

/-- What the program is asked to do. -/
structure Invocation where
  /-- The path of the configuration file. -/
  configuration : String
  command : Command
deriving DecidableEq, Repr

namespace Invocation

/-- The configuration file that is used when none is named. -/
def defaultConfiguration : String := "wbp.yaml"

/-- How the program is called. -/
def usage : String :=
  "usage: wbp-describe [--config FILE] list\n" ++
  "       wbp-describe [--config FILE] describe CLASS [--format json|text] " ++
  "[--factory CLASS --signature SIGNATURE]"

/-! ## Options -/

/-- An option, by its long name and the letter that is short for it. -/
structure OptionName where
  long : String
  short? : Option Char := none

/-- What an argument can be. -/
inductive Shape where
  | word
  /-- An option with its value. -/
  | complete (name value : String)
  /-- An option whose value follows. -/
  | open (name : String)
  | unknown

/-- Whether an argument is written like an option. -/
def looksLikeOption (arg : String) : Bool :=
  match arg.toList with
  | '-' :: _ :: _ => true
  | _ => false

/-- The shape of an argument where some options are known. -/
def shape (known : List OptionName) (arg : String) : Shape :=
  match arg.toList with
  | '-' :: '-' :: cs =>
    match known.find? (·.long == String.ofList (cs.takeWhile (· != '='))) with
    | none => .unknown
    | some o =>
      match cs.dropWhile (· != '=') with
      | [] => .open o.long
      | _ :: value => .complete o.long (String.ofList value)
  | '-' :: c :: cs =>
    match known.find? (·.short? == some c) with
    | none => .unknown
    | some o =>
      match cs with
      | [] => .open o.long
      | '=' :: value => .complete o.long (String.ofList value)
      | value => .complete o.long (String.ofList value)
  | _ => .word

/-! ## The command `describe` -/

/-- The arguments of `describe` so far. -/
structure DescribeArguments where
  className? : Option String := none
  format? : Option OutputFormat := none
  factory? : Option String := none
  signature? : Option String := none

/-- The options of `describe`. -/
def describeOptions : List OptionName :=
  [⟨"format", some 'f'⟩, ⟨"factory", none⟩, ⟨"signature", none⟩]

namespace DescribeArguments

/-- Adds an argument that is no option. -/
def addWord (d : DescribeArguments) (word : String) : Option DescribeArguments :=
  if d.className?.isSome then none else some { d with className? := some word }

/-- Adds an option. -/
def addOption (d : DescribeArguments) (name value : String) : Option DescribeArguments :=
  match name with
  | "format" =>
    if d.format?.isSome then none
    else if value = "json" then some { d with format? := some .json }
    else if value = "text" then some { d with format? := some .text }
    else none
  | "factory" => if d.factory?.isSome then none else some { d with factory? := some value }
  | "signature" => if d.signature?.isSome then none else some { d with signature? := some value }
  | _ => none

/-- Adds arguments. -/
def addAll (d : DescribeArguments) : List String → Option DescribeArguments
  | [] => some d
  | "--" :: rest => rest.foldlM addWord d
  | arg :: rest =>
    match shape describeOptions arg with
    | .unknown => none
    | .word => do
      let d ← d.addWord arg
      d.addAll rest
    | .complete name value => do
      let d ← d.addOption name value
      d.addAll rest
    | .open name =>
      match rest with
      | [] => none
      | value :: rest => do
        let d ← if looksLikeOption value then none else d.addOption name value
        d.addAll rest

/-- The command, if nothing is missing: a factory and a signature need each other. -/
def command? (d : DescribeArguments) : Option Command := do
  let className ← d.className?
  let format := d.format?.getD .json
  match d.factory?, d.signature? with
  | some factory, some signature => pure (.describe className format (some (factory, signature)))
  | none, none => pure (.describe className format none)
  | _, _ => none

end DescribeArguments

/-! ## All arguments -/

/-- Reads a command with its arguments. -/
def command? (name : String) (args : List String) : Option Command :=
  match name with
  | "describe" => do (← DescribeArguments.addAll {} args).command?
  | "list" => if args.isEmpty || args == ["--"] then some .list else none
  | _ => none

/-- Reads arguments when the configuration file was named before or not. -/
def ofArgumentsFrom? (configuration? : Option String) : List String → Option Invocation
  | [] => none
  | arg :: rest =>
    match shape [⟨"config", some 'c'⟩] arg with
    | .unknown => none
    | .word => do
      pure { configuration := configuration?.getD defaultConfiguration
             command := ← command? arg rest }
    | .complete _ value =>
      if configuration?.isSome ∨ value.isEmpty then none else ofArgumentsFrom? (some value) rest
    | .open _ =>
      match rest with
      | [] => none
      | value :: rest =>
        if configuration?.isSome ∨ value.isEmpty ∨ looksLikeOption value then none
        else ofArgumentsFrom? (some value) rest

/-- Reads all arguments of the program; none if they are not as they should be. -/
def ofArguments? (args : List String) : Option Invocation := ofArgumentsFrom? none args

end Invocation

end ComponentCatalog
