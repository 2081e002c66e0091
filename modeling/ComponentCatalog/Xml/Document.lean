import ComponentCatalog.Xml.Doctype
import ComponentCatalog.Xml.Element
import ComponentCatalog.Xml.Encoding
import ComponentCatalog.Xml.Source
import ComponentCatalog.Xml.Tag

/-!
# Documents

`Xml.read` reads the root element of a document.  Its tokens are added one after the other to an
`Outline`, which holds the elements that are still open, innermost first.

**Text.**  A run of text between two pieces of other markup counts unless it is blank.  A section of
character data always counts, and a run after a section that was not blank is not blank either.  The
same goes for a run in which a reference stands before any blanks, if it names an entity: whatever
the text of the entity, the run counts.

**Names.**  Elements and attributes go by their local names.  The name of a name space has to be
declared on the element itself or around it, and of attributes with one local name the last counts.

A document may go on with further elements after its root.  They have to be well formed, and are
left aside.
-/

set_option autoImplicit false

namespace ComponentCatalog.Xml

/-! ## Name spaces -/

namespace NameSpace

/-- The name under which name spaces are declared. -/
def declarations : String := "xmlns"

/-- The name of the name space that every document has. -/
def standard : String := "xml"

/-- The identifier of the name space that every document has. -/
def standardIdentifier : String := "http://www.w3.org/XML/1998/namespace"

/-- The identifier of the name space of declarations. -/
def declarationsIdentifier : String := "http://www.w3.org/2000/xmlns/"

/-- Takes an attribute into account: a declaration adds a name to those in scope, and anything else
to the attributes. -/
def addAttribute (known : List String × List (QualifiedName × String))
    (attr : QualifiedName × String) : Option (List String × List (QualifiedName × String)) :=
  let (scope, attributes) := known
  let (name, value) := attr
  if attributes.any (·.1 = name) then none
  else if name.space? = some declarations then
    if name.name = declarations ∨ (name.name = standard ∧ value ≠ standardIdentifier) ∨
        value.isEmpty then none
    else some (name.name :: scope, attributes)
  else if name.space? = none ∧ name.name = declarations then
    if [declarations, standard, standardIdentifier, declarationsIdentifier].contains value then none
    else some (scope, attributes)
  else some (scope, attributes ++ [attr])

/-- Whether the name space of a name is in scope. -/
def inScope (scope : List String) (name : QualifiedName) : Bool :=
  match name.space? with
  | none => true
  | some space => scope.contains space

end NameSpace

/-! ## Open elements -/

/-- An element that is still open. -/
structure OpenElement where
  name : QualifiedName
  attributes : NameMap String
  /-- The names of name spaces that are in scope. -/
  scope : List String
  /-- The runs of text so far, last one first. -/
  texts : List (List Char) := []
  /-- The child elements so far, last one first. -/
  children : List Element := []

namespace OpenElement

/-- Opens an element. -/
def ofTag? (scope : List String) (tag : Tag) : Option OpenElement := do
  let (scope, attributes) ← tag.attributes.foldlM NameSpace.addAttribute (scope, [])
  if tag.name.space? ≠ some NameSpace.standard ∧ tag.name.space? ≠ some NameSpace.declarations ∧
      NameSpace.inScope scope tag.name ∧
      attributes.all fun (name, _) ↦ NameSpace.inScope scope name then
    pure {
      name := tag.name
      attributes := .ofList (attributes.map fun (name, value) ↦ (name.name, value))
      scope }
  else none

/-- The element, closed. -/
def close (e : OpenElement) : Element :=
  { name := e.name.name, attributes := e.attributes,
    text := String.ofList e.texts.reverse.flatten, children := e.children.reverse }

/-- Adds a run of text. -/
def addText (e : OpenElement) (text : List Char) : OpenElement :=
  { e with texts := text :: e.texts }

/-- Adds a child element. -/
def addChild (e : OpenElement) (child : Element) : OpenElement :=
  { e with children := child :: e.children }

end OpenElement

/-! ## Outlines -/

/-- What the tokens that come next are part of.  Names and texts are kept as far as they were read,
last character first. -/
inductive Place where
  /-- The text between pieces of other markup. -/
  | text
  /-- The name of a reference in the text. -/
  | reference (reversed : List Char)
  | opening (s : TagState)
  /-- The name in a tag that closes an element. -/
  | closing (n : NameDraft)
  /-- The end of a tag that closes an element. -/
  | afterClosing (name : QualifiedName)
  | comment
  /-- A section of character data. -/
  | characterData (reversed : List Char)
  /-- The name of a processing instruction. -/
  | instructionName (reversed : List Char)
  | instruction
  | doctype (s : Doctype.State)

/-- The part of a document that was read. -/
structure Outline where
  version : Version
  entities : Entities := .empty
  place : Place := .text
  /-- The open elements, innermost first. -/
  opened : List OpenElement := []
  /-- The run of text that is being read, last character first. -/
  run : List Char := []
  /-- Whether the run of text is blank as far as it was read. -/
  blank : Bool := true
  /-- The first element that was closed outside all others. -/
  root? : Option Element := none
  /-- Whether a declaration of the document type can still follow. -/
  allowsDoctype : Bool := true

namespace Outline

/-- Whether no element is open. -/
def outside (o : Outline) : Bool := o.opened.isEmpty

/-- Goes on somewhere. -/
def goTo (o : Outline) (place : Place) : Outline := { o with place }

/-- Adds characters to the run of text. -/
def addChars (o : Outline) (chars : List Char) : Outline :=
  { o with run := chars.reverse ++ o.run, blank := o.blank && chars.all isSpace }

/-- Adds a text to the innermost open element. -/
def addText (o : Outline) (text : List Char) : Outline :=
  match o.opened with
  | [] => o
  | e :: rest => { o with opened := e.addText text :: rest }

/-- Ends the run of text that is being read. -/
def endRun (o : Outline) : Outline :=
  let o' := { o with run := [], blank := true }
  if o.run.isEmpty || o.blank then o' else o'.addText o.run.reverse

/-- Adds a closed element. -/
def addElement (o : Outline) (opened : List OpenElement) (e : Element) : Outline :=
  match opened with
  | [] => { o with opened := [], root? := o.root?.or (some e) }
  | outer :: rest => { o with opened := outer.addChild e :: rest }

/-- The names of name spaces that are in scope. -/
def scope (o : Outline) : List String :=
  match o.opened with
  | [] => [NameSpace.standard, NameSpace.declarations]
  | e :: _ => e.scope

/-- Opens an element, and closes it if its tag does. -/
def open? (o : Outline) (tag : Tag) : Option Outline := do
  let e ← OpenElement.ofTag? o.scope tag
  let o := o.goTo .text
  if tag.closed then pure (o.addElement o.opened e.close)
  else pure { o with opened := e :: o.opened }

/-- Closes the innermost open element, which has to have the name. -/
def close? (o : Outline) (name : QualifiedName) : Option Outline :=
  match o.opened with
  | [] => none
  | e :: rest => if e.name = name then some ((o.goTo .text).addElement rest e.close) else none

/-! ### Tokens -/

/-- A token in the text between pieces of other markup. -/
def inText? (o : Outline) (t : Token) : Option Outline :=
  match t with
  | .char c =>
    if o.outside then if isSpace c then some o else none
    else if o.version.allowsPlain c then some (o.addChars [c]) else none
  | .tagEnd | .emptyTagEnd | .equals | .quote _ | .semicolon | .commentEnd | .instructionEnd =>
    if o.outside then none else some (o.addChars t.chars)
  | .ampersand => if o.outside then none else some (o.goTo (.reference []))
  | .tagStart => some { o.endRun with place := .opening (.name {}), allowsDoctype := false }
  | .closingTagStart => if o.outside then none else some (o.endRun.goTo (.closing {}))
  | .commentStart => some (o.endRun.goTo .comment)
  | .instructionStart => some (o.endRun.goTo (.instructionName []))
  | .sectionStart => if o.outside then none else some (o.endRun.goTo (.characterData []))
  | .doctypeStart =>
    if o.allowsDoctype then
      some { o.endRun with place := .doctype .between, allowsDoctype := false }
    else none
  | .sectionEnd | .declarationStart => none

/-- Ends a reference in the text.  The text of an entity is to be read before the document goes
on. -/
def endReference (o : Outline) (referent : Referent) : Outline × List Char :=
  let (o, text) := match referent with
    | .character c => (o.addChars [c], [])
    | .entity text => (o, text)
  ({ o with place := .text, blank := o.blank && !o.run.isEmpty }, text)

/-- A token in a tag that closes an element, after the name. -/
def inClosing? (o : Outline) (name : QualifiedName) : Token → Option Outline
  | .tagEnd => o.close? name
  | .char c => if isSpace c then some (o.goTo (.afterClosing name)) else none
  | _ => none

/-- A token in the name of a tag that closes an element. -/
def inClosingName? (o : Outline) (n : NameDraft) (t : Token) : Option Outline :=
  let finish (t : Token) : Option Outline := do o.inClosing? (← n.finish?) t
  match t with
  | .char c => if isSpace c then finish t else (n.add? c).map fun n ↦ o.goTo (.closing n)
  | t => finish t

/-- A token in a section of character data. -/
def inCharacterData? (o : Outline) (reversed : List Char) : Token → Option Outline
  | .sectionEnd => some ((o.addText reversed.reverse).goTo .text)
  | .char c =>
    if o.version.allows c then
      some { o with place := .characterData (c :: reversed), blank := o.blank && isSpace c }
    else none
  | t => some (o.goTo (.characterData (t.chars.reverse ++ reversed)))

/-- Whether a processing instruction may have a name: any but `xml`, in whatever case, which is kept
for the declaration at the start of a document. -/
def allowsInstruction (reversed : List Char) : Bool :=
  reversed.map (·.toLower) != ['l', 'm', 'x']

/-- A token in the name of a processing instruction.  The name can be empty if a blank follows. -/
def inInstructionName? (o : Outline) (reversed : List Char) : Token → Option Outline
  | .char c =>
    if isSpace c then if allowsInstruction reversed then some (o.goTo .instruction) else none
    else if (if reversed.isEmpty then isNameStart c else isNameChar c) then
      some (o.goTo (.instructionName (c :: reversed)))
    else none
  | .instructionEnd =>
    if !reversed.isEmpty && allowsInstruction reversed then some (o.goTo .text) else none
  | _ => none

/-- A token in a part that is left aside, up to the token that ends it. -/
def inAside? (o : Outline) (last : Token) (t : Token) : Option Outline :=
  if t = last then some (o.goTo .text)
  else
    match t with
    | .char c => if o.version.allows c then some o else none
    | _ => some o

/-- A token in the declaration of the document type. -/
def inDoctype? (o : Outline) (s : Doctype.State) (t : Token) : Option (Outline × List Char) := do
  match ← Doctype.step? o.version o.entities s t with
  | (entities, .go s) => pure ({ o with entities, place := .doctype s }, [])
  | (entities, .expand text) => pure ({ o with entities, place := .doctype .between }, text)
  | (entities, .done) => pure ({ o with entities, place := .text }, [])

/-- Adds a token.  With it comes a text to be read before the document goes on. -/
def add? (o : Outline) (t : Token) : Option (Outline × List Char) :=
  let plain (o? : Option Outline) : Option (Outline × List Char) := o?.map fun o ↦ (o, [])
  match o.place with
  | .text => plain (o.inText? t)
  | .reference reversed =>
    match t with
    | .char c => plain ((Reference.add? reversed c).map fun reversed ↦ o.goTo (.reference reversed))
    | .semicolon =>
      (Reference.resolve? o.version o.entities reversed.reverse).map o.endReference
    | _ => none
  | .opening s => plain do
    match ← s.step? o.version o.entities t with
    | .go s => pure (o.goTo (.opening s))
    | .done tag => o.open? tag
  | .closing n => plain (o.inClosingName? n t)
  | .afterClosing name => plain (o.inClosing? name t)
  | .comment => plain (o.inAside? .commentEnd t)
  | .characterData reversed => plain (o.inCharacterData? reversed t)
  | .instructionName reversed => plain (o.inInstructionName? reversed t)
  | .instruction => plain (o.inAside? .instructionEnd t)
  | .doctype s => o.inDoctype? s t

/-- The root element, once everything is closed. -/
def finish? (o : Outline) : Option Element :=
  match o.place with
  | .text => if o.outside then o.root? else none
  | _ => none

end Outline

/-! ## Reading -/

/-- Adds a token, and puts the text that comes with it in front of what is still to be read. -/
def addToken (o : Outline) (t : Token) : Reader Source Outline := do
  let (o, text) ← Reader.lift (o.add? t)
  Source.replace text
  pure o

/-- Adds the tokens that a character completes. -/
def addCharacter (progress : Tokenizer × Outline) (c : Char) :
    Reader Source (Tokenizer × Outline) := do
  let (tokens, tokenizer) ← Reader.lift (progress.1.step c)
  pure (tokenizer, ← tokens.foldlM addToken progress.2)

/-- The root element of the document that bytes write; none unless all of it is well formed. -/
def read (bytes : Bytes) : Option Element := do
  let (declaration, text) ← decodeDocument bytes
  let start : Tokenizer × Outline := ({}, { version := declaration.version })
  let (tokenizer, outline) ← (Reader.loopToEnd addCharacter start).read { own := text }
  if tokenizer.canEnd then outline.finish? else none

end ComponentCatalog.Xml
