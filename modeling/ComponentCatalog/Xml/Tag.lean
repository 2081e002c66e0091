import ComponentCatalog.Xml.Reference
import ComponentCatalog.Xml.Token

/-!
# Tags

The tags that open elements, read token by token: a name, and after it attributes with blanks in
front of them.

**Values take marks as they come.**  Between the quotes of a value every mark but the start of a tag
or of a processing instruction is text.  A reference in a value is replaced by a character or by the
text of an entity, and marks in that text are text as well.
-/

set_option autoImplicit false

namespace ComponentCatalog.Xml

/-- A tag that opens an element. -/
structure Tag where
  name : QualifiedName
  /-- The attributes in order, declarations of name spaces included. -/
  attributes : List (QualifiedName × String)
  /-- Whether the tag also closes the element. -/
  closed : Bool

/-! ## Names -/

/-- A name that is being read. -/
structure NameDraft where
  /-- The name so far, last character first. -/
  reversed : List Char := []
  /-- Whether a colon was read.  A name that starts with a character past the first 128 takes this
  over from the name before it, and so cannot have a colon after a name with one. -/
  colon : Bool := false

namespace NameDraft

/-- Forgets about colons as long as the name has one byte at most. -/
def refresh (n : NameDraft) : NameDraft :=
  match n.reversed with
  | [] => { n with colon := false }
  | [c] => if c.toNat < 0x80 then { n with colon := false } else n
  | _ => n

/-- Adds a character to a name. -/
def add? (n : NameDraft) (c : Char) : Option NameDraft :=
  let n := n.refresh
  if c = ':' then
    if n.reversed.isEmpty || n.colon then none else some ⟨c :: n.reversed, true⟩
  else if (if n.reversed.isEmpty then isNameStart c else isNameChar c) then
    some { n with reversed := c :: n.reversed }
  else none

/-- The name, once all of it was read. -/
def finish? (n : NameDraft) : Option QualifiedName := QualifiedName.ofChars? n.reversed.reverse

end NameDraft

/-! ## Opening tags -/

/-- A tag that is being read. -/
structure TagDraft where
  name : QualifiedName
  /-- The attributes so far, last one first. -/
  attributes : List (QualifiedName × String) := []
  /-- Whether the last name that was read had a colon. -/
  colon : Bool

/-- The tag, once all of it was read. -/
def TagDraft.finish (d : TagDraft) (closed : Bool) : Tag := ⟨d.name, d.attributes.reverse, closed⟩

/-- The value of an attribute that is being read. -/
structure ValueDraft where
  tag : TagDraft
  key : QualifiedName
  /-- The quotes that the value stands between. -/
  quote : Quote
  /-- The value so far, last character first. -/
  text : List Char := []

/-- Adds characters to a value. -/
def ValueDraft.add (v : ValueDraft) (chars : List Char) : ValueDraft :=
  { v with text := chars.reverse ++ v.text }

/-- The tag with the attribute, once all of the value was read. -/
def ValueDraft.finish (v : ValueDraft) : TagDraft :=
  { v.tag with attributes := (v.key, String.ofList v.text.reverse) :: v.tag.attributes }

/-- Where in a tag a token stands. -/
inductive TagState where
  | name (n : NameDraft)
  /-- After a blank. -/
  | between (tag : TagDraft)
  | key (tag : TagDraft) (n : NameDraft)
  | afterKey (tag : TagDraft) (key : QualifiedName)
  | beforeValue (tag : TagDraft) (key : QualifiedName)
  | value (v : ValueDraft)
  /-- In the name of a reference in a value, last character first. -/
  | reference (v : ValueDraft) (reversed : List Char)
  | afterValue (tag : TagDraft)

namespace TagState

/-- What follows a token. -/
inductive Next where
  | go (s : TagState)
  | done (tag : Tag)

/-- A token that ends a tag, or a blank. -/
def endOrBlank? (tag : TagDraft) : Token → Option Next
  | .tagEnd => some (.done (tag.finish false))
  | .emptyTagEnd => some (.done (tag.finish true))
  | .char c => if isSpace c then some (.go (.between tag)) else none
  | _ => none

/-- A token in the name of an element. -/
def inName? (n : NameDraft) (t : Token) : Option Next :=
  let finish (t : Token) : Option Next := do
    endOrBlank? { name := ← n.finish?, colon := n.refresh.colon } t
  match t with
  | .char c => if isSpace c then finish t else (n.add? c).map fun n ↦ .go (.name n)
  | t => finish t

/-- A token after a blank. -/
def inBetween? (tag : TagDraft) (t : Token) : Option Next :=
  match t with
  | .char c =>
    if isNameStart c then some (.go (.key tag { reversed := [c], colon := tag.colon }))
    else endOrBlank? tag t
  | t => endOrBlank? tag t

/-- A token in the name of an attribute. -/
def inKey? (tag : TagDraft) (n : NameDraft) (t : Token) : Option TagState :=
  let tag := { tag with colon := n.refresh.colon }
  match t with
  | .equals => do pure (.beforeValue tag (← n.finish?))
  | .char c =>
    if isSpace c then do pure (.afterKey tag (← n.finish?))
    else (n.add? c).map fun n ↦ .key tag n
  | _ => none

/-- A token between the quotes of a value. -/
def inValue? (version : Version) (v : ValueDraft) (t : Token) : Option TagState :=
  if t = .quote v.quote then some (.afterValue v.finish)
  else
    match t with
    | .ampersand => some (.reference v [])
    | .tagStart | .instructionStart => none
    | .char c => if version.allowsPlain c then some (.value (v.add [c])) else none
    | t => some (.value (v.add t.chars))

/-- A token in a reference in a value. -/
def inReference? (version : Version) (entities : Entities) (v : ValueDraft) (reversed : List Char) :
    Token → Option TagState
  | .char c => (Reference.add? reversed c).map fun reversed ↦ .reference v reversed
  | .semicolon => do
    match ← Reference.resolve? version entities reversed.reverse with
    | .character c => pure (.value (v.add [c]))
    | .entity text => pure (.value (v.add text))
  | _ => none

/-- Goes on after a token. -/
def step? (version : Version) (entities : Entities) (s : TagState) (t : Token) : Option Next :=
  match s with
  | .name n => inName? n t
  | .between tag => inBetween? tag t
  | .key tag n => (inKey? tag n t).map .go
  | .afterKey tag k =>
    match t with
    | .equals => some (.go (.beforeValue tag k))
    | .char c => if isSpace c then some (.go (.afterKey tag k)) else none
    | _ => none
  | .beforeValue tag k =>
    match t with
    | .quote quote => some (.go (.value { tag, key := k, quote }))
    | .char c => if isSpace c then some (.go (.beforeValue tag k)) else none
    | _ => none
  | .value v => (inValue? version v t).map .go
  | .reference v reversed => (inReference? version entities v reversed t).map .go
  | .afterValue tag => endOrBlank? tag t

end TagState

end ComponentCatalog.Xml
