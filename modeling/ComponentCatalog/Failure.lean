/-!
# Failures

What can go wrong while a description is resolved.  A `Failure` names the kind of the problem, says
it in words, and carries the class and the resource it concerns where they are known.

A failure can stand on top of others: a processor that fails for a reason of its own reports its
own failure *caused by* that reason.  The whole chain is kept, topmost report first, down to the
thing outside the catalog that started it, if there is one.

One failure is never reported.  A search that goes on for ever has no outcome: the program is broken
off when it has used up its stack.  `Failure.endlessSearch` stands where an outcome would be.
-/

set_option autoImplicit false

namespace ComponentCatalog

/-- The kinds of failure. -/
inductive FailureKind where
  /-- No class of the hierarchy has a metadata resource. -/
  | noDescriptions
  /-- No layer and no bundle names a toolkit. -/
  | noToolkit
  /-- No layer names a model class. -/
  | noModelClass
  /-- A metadata resource is malformed or breaks a rule of the format. -/
  | loadError
  /-- A class is not on the class path. -/
  | classNotFound
  /-- Metadata names a constructor or method that the class does not have. -/
  | unknownMember
  /-- A file cannot be read. -/
  | io
  /-- The configuration or a class model is wrong. -/
  | config
  /-- A description processor failed. -/
  | processor
deriving DecidableEq, Repr

namespace FailureKind

/-- The word for a kind of failure. -/
def word : FailureKind → String
  | noDescriptions => "no_descriptions"
  | noToolkit => "no_toolkit"
  | noModelClass => "no_model_class"
  | loadError => "load_error"
  | classNotFound => "class_not_found"
  | unknownMember => "unknown_member"
  | io => "io"
  | config => "config"
  | processor => "processor"

/-- The number of a kind of failure: metadata from 201, look-ups from 301, configuration 401,
processors 501. -/
def code : FailureKind → Nat
  | noDescriptions => 201
  | noToolkit => 202
  | loadError => 203
  | noModelClass => 204
  | unknownMember => 205
  | classNotFound => 301
  | io => 302
  | config => 401
  | processor => 501

/-- Every kind. -/
def all : List FailureKind :=
  [noDescriptions, noToolkit, noModelClass, loadError, classNotFound, unknownMember, io, config,
    processor]

/-- The kind that a word stands for. -/
def ofWord? (word : String) : Option FailureKind := all.find? (·.word == word)

end FailureKind

/-- The cause of a chain of failures that is itself no failure of the catalog. -/
inductive Origin where
  /-- A document is not well formed. -/
  | xmlSyntax
  /-- The configuration was refused. -/
  | configuration
  /-- A file could not be read, or a text could not be decoded. -/
  | outside
  /-- The stack was used up, so that the program was broken off. -/
  | exhaustion
deriving DecidableEq, Repr

/-- One report of a problem. -/
structure Report where
  kind : FailureKind
  message : String
  className? : Option String := none
  resource? : Option String := none
deriving DecidableEq, Repr

/-- A report with what caused it. -/
structure Failure extends Report where
  /-- The reports of the failures that caused this one, nearest cause first. -/
  causes : List Report := []
  /-- What started the chain, where it came from outside. -/
  origin? : Option Origin := none
deriving DecidableEq, Repr

namespace Failure

/-- A failure of a kind, without class, resource or cause. -/
def of (kind : FailureKind) (message : String) : Failure :=
  { kind := kind, message := message }

/-- Names the class that the failure concerns. -/
def withClass (f : Failure) (name : String) : Failure := { f with className? := some name }

/-- Names the class unless one is named already. -/
def orClass (f : Failure) (name : String) : Failure :=
  { f with className? := f.className?.or (some name) }

/-- Names the resource that the failure concerns. -/
def withResource (f : Failure) (resource : String) : Failure :=
  { f with resource? := some resource }

/-- Names what started the failure, in place of any earlier cause. -/
def withOrigin (f : Failure) (origin : Origin) : Failure :=
  { f with causes := [], origin? := some origin }

/-- Puts the failure on top of `cause`, in place of any earlier cause. -/
def causedBy (f cause : Failure) : Failure :=
  { f with causes := cause.toReport :: cause.causes, origin? := cause.origin? }

/-! ## The failures of the catalog -/

def noDescriptions (className : String) : Failure :=
  (of .noDescriptions "no component descriptions found in class hierarchy").withClass className

def noToolkit (className : String) : Failure :=
  (of .noToolkit "no toolkit declared for component").withClass className

def noModelClass (className : String) : Failure :=
  (of .noModelClass "no model class declared for component").withClass className

def classNotFound (className : String) : Failure :=
  (of .classNotFound "class not found").withClass className

def load (message : String) : Failure := of .loadError message

def unknownMember (message : String) : Failure := of .unknownMember message

def io (message : String) : Failure := of .io message

def config (message : String) : Failure := of .config message

def processor (message : String) : Failure := of .processor message

/-- A search that starts at a class goes on for ever.  Nobody is told so: this stands for having no
outcome. -/
def endlessSearch (className : String) : Failure :=
  ((load "endless search").withClass className).withOrigin .exhaustion

/-- There is no outcome, and the program is broken off. -/
def isEndless (f : Failure) : Bool := f.origin? = some .exhaustion

end Failure

/-- The report on one line: its kind and message, then the class and the resource if known. -/
def Report.display (r : Report) : String :=
  "[" ++ r.kind.word ++ "] " ++ r.message ++
    (match r.className? with | some name => " (class " ++ name ++ ")" | none => "") ++
    (match r.resource? with | some resource => " in " ++ resource | none => "")

end ComponentCatalog
