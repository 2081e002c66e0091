import ComponentCatalog.Xml.Reference
import ComponentCatalog.Xml.Token

/-!
# Document type declarations

The declaration of the document type matters for one thing only: the entities that it declares.  Its
tokens are skipped up to the bracket that closes it, and on the way declarations of entities are
read.

The names of parameter entities, which can be used inside the declaration alone, are kept with a
percent sign in front.  Of several declarations of an entity **the first counts**.  An entity whose
text is elsewhere counts as empty.
-/

set_option autoImplicit false

namespace ComponentCatalog.Xml

/-- Declares an entity unless it is declared already. -/
def Entities.declare (entities : Entities) (name : List Char) (text : List Char) : Entities :=
  let name := String.ofList name
  if entities.contains name then entities else entities.insert name text

namespace Doctype

/-- An entity whose text is being read. -/
structure Draft where
  name : List Char
  /-- The quotes that the text stands between. -/
  quote : Quote
  /-- The text so far, last character first. -/
  text : List Char := []

/-- Adds characters to the text of an entity. -/
def Draft.add (d : Draft) (chars : List Char) : Draft := { d with text := chars.reverse ++ d.text }

/-- Where in the declaration a token stands.  Names and numbers are kept as far as they were read,
last character first. -/
inductive State where
  /-- Between the parts of the declaration. -/
  | between
  | quoted (q : Quote)
  | comment
  /-- In the name of a parameter entity whose text is to be put here. -/
  | parameter (reversed : List Char)
  /-- In the word that says what is declared. -/
  | keyword (reversed : List Char)
  /-- Before the name of an entity, which is a parameter entity or not. -/
  | beforeName (parameter : Bool)
  | name (reversed : List Char)
  | beforeText (name : List Char)
  | text (d : Draft)
  /-- After an ampersand in the text of an entity. -/
  | textReference (d : Draft)
  /-- In the number of a character in the text of an entity. -/
  | textNumber (d : Draft) (reversed : List Char)
  /-- In the name of a parameter entity in the text of an entity. -/
  | textParameter (d : Draft) (reversed : List Char)
  /-- In the part of a declaration that does not matter. -/
  | rest

/-- What follows a token. -/
inductive Next where
  | go (s : State)
  /-- A text is read before the declaration goes on. -/
  | expand (text : List Char)
  /-- The declaration of the document type has ended. -/
  | done

/-- The next state between the parts of the declaration. -/
def between? : Token → Option Next
  | .tagEnd => some .done
  | .declarationStart => some (.go (.keyword []))
  | .char '%' => some (.go (.parameter ['%']))
  | .commentStart => some (.go .comment)
  | .quote q => some (.go (.quoted q))
  | .sectionStart | .sectionEnd => none
  | _ => some (.go .between)

/-- The next state after the word that says what is declared. -/
def keyword? (word : String) : Option State :=
  if word = "ENTITY" then some (.beforeName false)
  else if ["NOTATION", "ELEMENT", "ATTLIST"].contains word then some .rest
  else none

/-- The next state in the word that says what is declared. -/
def inKeyword? (reversed : List Char) : Token → Option State
  | .char c =>
    if 'A' ≤ c ∧ c ≤ 'Z' then some (.keyword (c :: reversed))
    else if isSpace c then keyword? (String.ofList reversed.reverse)
    else none
  | _ => none

/-- The next state before the name of an entity. -/
def beforeName? (parameter : Bool) : Token → Option State
  | .char c =>
    if isSpace c then some (.beforeName parameter)
    else if c = '%' ∧ !parameter then some (.beforeName true)
    else if isNameStart c then some (.name (if parameter then [c, '%'] else [c]))
    else none
  | _ => none

/-- The next state in the name of an entity. -/
def inName? (reversed : List Char) : Token → Option State
  | .char c =>
    if isSpace c then some (.beforeText reversed.reverse)
    else if isNameChar c then some (.name (c :: reversed))
    else none
  | _ => none

/-- The next state in the text of an entity.  Parameter entities and characters given by number are
replaced, other references are kept as they are written. -/
def inText? (version : Version) (entities : Entities) (d : Draft) (t : Token) :
    Option (Entities × State) :=
  if t = .quote d.quote then some (entities.declare d.name d.text.reverse, .rest)
  else
    match t with
    | .ampersand | .char '&' => some (entities, .textReference d)
    | .char '%' => some (entities, .textParameter d ['%'])
    | .char c => if version.allows c then some (entities, .text (d.add [c])) else none
    | t => some (entities, .text (d.add t.chars))

/-- The next state after an ampersand in the text of an entity. -/
def inReference? (version : Version) (d : Draft) : Token → Option State
  | .char c =>
    if c = '#' then some (.textNumber d [])
    else if version.allows c then some (.text (d.add ['&', c]))
    else none
  | _ => none

/-- The next state in the number of a character. -/
def inNumber? (version : Version) (d : Draft) (reversed : List Char) : Token → Option State
  | .semicolon | .char ';' => do
    pure (.text (d.add [← Reference.ofNumber? version reversed.reverse]))
  | .char c => if version.allows c then some (.textNumber d (c :: reversed)) else none
  | _ => none

/-- A token in the name of a parameter entity: one more character of the name, or the text that the
name stands for. -/
def inParameter? (entities : Entities) (reversed : List Char) :
    Token → Option (List Char ⊕ List Char)
  | .semicolon | .char ';' => (entities.get? (String.ofList reversed.reverse)).map .inr
  | .char c => if isNameChar c then some (.inl (c :: reversed)) else none
  | _ => none

/-- Goes on after a token. -/
def step? (version : Version) (entities : Entities) (s : State) (t : Token) :
    Option (Entities × Next) :=
  let go (s? : Option State) : Option (Entities × Next) := s?.map fun s ↦ (entities, .go s)
  match s with
  | .between => (between? t).map fun next ↦ (entities, next)
  | .quoted q => go (some (if t = .quote q then .between else .quoted q))
  | .comment => go (some (if t = .commentEnd then .between else .comment))
  | .parameter reversed => do
    match ← inParameter? entities reversed t with
    | .inl reversed => pure (entities, .go (.parameter reversed))
    | .inr text => pure (entities, .expand text)
  | .keyword reversed => go (inKeyword? reversed t)
  | .beforeName parameter => go (beforeName? parameter t)
  | .name reversed => go (inName? reversed t)
  | .beforeText name =>
    match t with
    | .char c =>
      if isSpace c then go (some (.beforeText name))
      else if c = 'S' ∨ c = 'P' then some (entities.declare name [], .go .rest)
      else none
    | .quote quote => go (some (.text { name, quote }))
    | _ => none
  | .text d => (inText? version entities d t).map fun (entities, s) ↦ (entities, .go s)
  | .textReference d => go (inReference? version d t)
  | .textNumber d reversed => go (inNumber? version d reversed t)
  | .textParameter d reversed => do
    match ← inParameter? entities reversed t with
    | .inl reversed => pure (entities, .go (.textParameter d reversed))
    | .inr text => pure (entities, .go (.text (d.add text)))
  | .rest =>
    match t with
    | .tagEnd => go (some .between)
    | .declarationStart => none
    | _ => go (some .rest)

end Doctype

end ComponentCatalog.Xml
