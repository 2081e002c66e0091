import ComponentCatalog.Failure
import ComponentCatalog.Layer.Document
import ComponentCatalog.Xml.Element

/-!
# Rules for reading layers

A layer is read by rules.  Every element of the document has a path, the names from the root to it
joined by slashes.  A rule has a pattern for paths and two handlers: one is called when an element
with a matching path opens, the other when it closes.

**Order of calls.**  `calls` lists the handlers to call for an element: those of its matching rules
when it opens, in the order of the rules, then the calls for its children, then those for its
closing, in reverse order.  Reading a document means making these calls one after the other
(`run`), up to the first that fails.

Between the calls stands the state of a `Reading`: the layer document so far, and a stack of
frames, which are the parts of it that are under construction.
-/

set_option autoImplicit false

namespace ComponentCatalog

open Xml

/-! ## The state of reading -/

/-- A part of a layer document that is under construction. -/
inductive Frame where
  | creation (creation : Creation) (isDefault : Bool)
  | morphTargets (targets : MorphTargets)
  | constructor (note : ConstructorNote)
  | method (note : MethodNote)
  | parameter (parameter : Parameter)
  | property (override : PropertyOverride)
  | methodProperty (property : MethodProperty)
  | configurableProperty (property : Property)
  | editor (editor : Editor)
  | methodOrderGroup (order : MethodOrder)
deriving DecidableEq

/-- The name of a frame. -/
def Frame.name : Frame → String
  | creation .. => "creation"
  | morphTargets _ => "morph targets"
  | constructor _ => "constructor"
  | method _ => "method"
  | parameter _ => "parameter"
  | property _ => "property"
  | methodProperty _ => "method property"
  | configurableProperty _ => "configurable property"
  | editor _ => "editor"
  | methodOrderGroup _ => "method order group"

/-- The state of reading a layer. -/
structure Reading where
  document : LayerDocument := {}
  /-- The parts under construction, innermost first. -/
  frames : List Frame := []
deriving DecidableEq

namespace Failure

/-- An element found something else under construction than what it belongs to. -/
def misplaced (e : Element) (found? : Option String) : Failure :=
  load ("<" ++ e.name ++ "> is not allowed here (open: " ++ found?.getD "nothing" ++ ")")

/-- An element closed with nothing under construction. -/
def emptyStack (e : Element) : Failure :=
  load ("<" ++ e.name ++ "> closed with empty stack")

/-- Something is still under construction at the end of a document. -/
def unterminated (frame : Frame) : Failure :=
  load ("unterminated " ++ frame.name ++ " at end of document")

/-- The document is about something else. -/
def wrongRoot (expected found : String) : Failure :=
  load ("root element must be <" ++ expected ++ ">, found <" ++ found ++ ">")

end Failure

namespace Reading

/-- Changes the document. -/
def edit (r : Reading) (change : LayerDocument → LayerDocument) : Reading :=
  { r with document := change r.document }

/-- Begins the construction of a part. -/
def push (r : Reading) (frame : Frame) : Reading := { r with frames := frame :: r.frames }

/-- The innermost part under construction. -/
def top? (r : Reading) : Option Frame := r.frames.head?

/-- The number of parts under construction. -/
def depth (r : Reading) : Nat := r.frames.length

/-- Ends the construction of the innermost part. -/
def pop (r : Reading) (e : Element) : Except Failure (Frame × Reading) :=
  match r.frames with
  | [] => .error (.emptyStack e)
  | frame :: rest => .ok (frame, { r with frames := rest })

/-- Changes the innermost part; an element that does not belong to it is misplaced. -/
def editTop (r : Reading) (e : Element) (change : Frame → Option Frame) :
    Except Failure Reading :=
  match r.frames with
  | [] => .error (.misplaced e none)
  | frame :: rest =>
    match change frame with
    | some frame => .ok { r with frames := frame :: rest }
    | none => .error (.misplaced e (some frame.name))

/-- Changes the override under construction.  That of a method property begins when something is
set for it first. -/
def editOverride (r : Reading) (e : Element) (change : PropertyOverride → PropertyOverride) :
    Except Failure Reading :=
  r.editTop e fun
    | .property o => some (.property (change o))
    | .methodProperty p =>
      let o := p.override?.getD { selector := p.method }
      some (.methodProperty { p with override? := some (change o) })
    | _ => none

/-- The document, if nothing is under construction any more. -/
def finish (r : Reading) : Except Failure LayerDocument :=
  match r.frames with
  | [] => .ok r.document
  | frame :: _ => .error (.unterminated frame)

end Reading

/-! ## Rules and their calls -/

/-- What happens when an element opens or closes. -/
abbrev Handler := Element → Reading → Except Failure Reading

/-- A pattern for the paths of elements with what happens at the elements that match. -/
structure Rule where
  /-- A path, or `*/` and what a path ends with. -/
  pattern : String
  onOpen : Handler := fun _ r ↦ .ok r
  onClose : Handler := fun _ r ↦ .ok r

/-- Whether a path matches a pattern: a pattern that starts with `*/` stands for its rest at the
end of any path, every other one for itself. -/
def Rule.patternMatches (pattern path : String) : Bool :=
  match Text.afterPrefix? ['*', '/'] pattern.toList with
  | some ending => path.toList == ending || ('/' :: ending).isSuffixOf path.toList
  | none => pattern == path

/-- Whether a rule is for the elements with a path. -/
def Rule.matches (r : Rule) (path : String) : Bool := Rule.patternMatches r.pattern path

/-- A handler to call: that for the opening or for the closing of an element. -/
structure Call where
  rule : Rule
  opens : Bool
  element : Element

/-- Makes the call. -/
def Call.run (c : Call) (r : Reading) : Except Failure Reading :=
  if c.opens then c.rule.onOpen c.element r else c.rule.onClose c.element r

/-- The path of a child element. -/
def childPath (path name : String) : String := path ++ "/" ++ name

namespace Rules

mutual

/-- The calls for an element with a path, and for all elements in it. -/
def calls (rules : List Rule) (path : String) : Element → List Call
  | ⟨name, attributes, text, children⟩ =>
    let element := ⟨name, attributes, text, children⟩
    let matching := rules.filter (·.matches path)
    matching.map (⟨·, true, element⟩) ++ childCalls rules path children ++
      matching.reverse.map (⟨·, false, element⟩)

/-- The calls for the children of an element with a path. -/
def childCalls (rules : List Rule) (path : String) : List Element → List Call
  | [] => []
  | child :: rest =>
    calls rules (childPath path child.name) child ++ childCalls rules path rest

end

/-- Makes calls one after the other, up to the first that fails. -/
def run (calls : List Call) (r : Reading) : Except Failure Reading :=
  calls.foldlM (fun r c ↦ c.run r) r

/-- The name of the root element of a layer. -/
def rootName : String := "component"

/-- The layer that a document writes. -/
def apply (rules : List Rule) (root : Element) : Except Failure LayerDocument :=
  if root.name = rootName then do
    let r ← run (calls rules rootName root) {}
    r.finish
  else .error (.wrongRoot rootName root.name)

end Rules

end ComponentCatalog
