import ComponentCatalog.Xml.Character

/-!
# Tokens

The characters of a document come in **tokens**: the marks that markup is made of, and single
characters where there is no mark.  Which marks there are changes on the way, since between the ends
of a comment nothing counts but the comment's end, and in the declaration of the document type a
slash is no mark.  So a `Tokenizer` is always in a `Mode`.

**Marks alone change the mode.**  A tokenizer does not know whether a mark may stand where it
stands: the start of a comment inside the quotes of an attribute's value is the start of a comment,
and its quotes are characters until the comment ends.
-/

set_option autoImplicit false

namespace ComponentCatalog.Xml

/-- The two kinds of quotes. -/
inductive Quote where
  | single
  | double
deriving DecidableEq, Repr

/-- How a quote is written. -/
def Quote.char : Quote → Char
  | single => '\''
  | double => '"'

/-- A mark, or a character that is part of none. -/
inductive Token where
  | char (c : Char)
  | quote (q : Quote)
  | equals
  | ampersand
  | semicolon
  | tagStart
  | closingTagStart
  | tagEnd
  | emptyTagEnd
  | instructionStart
  | instructionEnd
  | commentStart
  | commentEnd
  | sectionStart
  | sectionEnd
  | doctypeStart
  | declarationStart
deriving DecidableEq, Repr

/-- How a token is written. -/
def Token.chars : Token → List Char
  | char c => [c]
  | quote q => [q.char]
  | equals => ['=']
  | ampersand => ['&']
  | semicolon => [';']
  | tagStart => ['<']
  | closingTagStart => ['<', '/']
  | tagEnd => ['>']
  | emptyTagEnd => ['/', '>']
  | instructionStart => ['<', '?']
  | instructionEnd => ['?', '>']
  | commentStart => ['<', '!', '-', '-']
  | commentEnd => ['-', '-', '>']
  | sectionStart => ['<', '!', '[', 'C', 'D', 'A', 'T', 'A', '[']
  | sectionEnd => [']', ']', '>']
  | doctypeStart => ['<', '!', 'D', 'O', 'C', 'T', 'Y', 'P', 'E']
  | declarationStart => ['<', '!']

/-- The marks that open something by a word. -/
inductive Opening where
  | comment
  | characterData
  | doctype
deriving DecidableEq, Repr

/-- What counts as a mark. -/
inductive Mode where
  /-- Tags and the text between them. -/
  | content
  /-- The declaration of the document type. -/
  | doctype
  /-- After an opening bracket. -/
  | bracket
  /-- After an opening bracket and an exclamation mark. -/
  | exclamation
  /-- In a mark that opens something, before the rest of its word. -/
  | opening (rest : List Char) (what : Opening)
  /-- After a slash among tags and text. -/
  | slash
  /-- After a closing square bracket among tags and text, or after two of them. -/
  | squares (two : Bool)
  | comment
  /-- After a hyphen in a comment, or after two of them. -/
  | commentHyphens (two : Bool)
  /-- A section of character data. -/
  | characterData
  /-- After a closing square bracket in such a section, or after two of them. -/
  | sectionSquares (two : Bool)
  | instruction
  /-- After a question mark in a processing instruction. -/
  | instructionMark
  /-- A declaration inside the declaration of the document type. -/
  | declaration
  /-- A quoted text in such a declaration. -/
  | declarationText (q : Quote)
deriving DecidableEq, Repr

/-- Cuts characters into tokens. -/
structure Tokenizer where
  mode : Mode := .content
  /-- Whether a declaration of the document type was opened and not closed. -/
  inDoctype : Bool := false
deriving DecidableEq, Repr

namespace Tokenizer

/-- The token of a character that is a mark wherever markup is, or no mark. -/
def ofChar (c : Char) : Token :=
  if c = '&' then .ampersand
  else if c = ';' then .semicolon
  else if c = '"' then .quote .double
  else if c = '\'' then .quote .single
  else .char c

/-- The mode between the pieces of markup. -/
def between (t : Tokenizer) : Mode := if t.inDoctype then .doctype else .content

/-- Goes on in a mode, with tokens. -/
def go (t : Tokenizer) (mode : Mode) (tokens : List Token) : List Token × Tokenizer :=
  (tokens, { t with mode })

/-- Puts tokens in front of what a step gives. -/
def after (tokens : List Token) (result : List Token × Tokenizer) : List Token × Tokenizer :=
  (tokens ++ result.1, result.2)

/-- A character among tags and text. -/
def content (t : Tokenizer) (c : Char) : List Token × Tokenizer :=
  if c = '<' then t.go .bracket []
  else if c = '/' then t.go .slash []
  else if c = ']' then t.go (.squares false) []
  else if c = '>' then t.go .content [.tagEnd]
  else if c = '=' then t.go .content [.equals]
  else t.go .content [ofChar c]

/-- A character in the declaration of the document type.  A closing bracket ends the declaration,
wherever in it the bracket stands. -/
def doctype (t : Tokenizer) (c : Char) : List Token × Tokenizer :=
  if c = '<' then t.go .bracket []
  else if c = '>' then ([.tagEnd], { mode := .content, inDoctype := false })
  else t.go .doctype [ofChar c]

/-- A character between the pieces of markup. -/
def outside (t : Tokenizer) (c : Char) : List Token × Tokenizer :=
  if t.inDoctype then t.doctype c else t.content c

/-- A character in a processing instruction. -/
def instruction (t : Tokenizer) (c : Char) : List Token × Tokenizer :=
  if c = '?' then t.go .instructionMark []
  else if c = '<' then t.go .instruction [.tagStart]
  else if c = '>' then t.go .instruction [.tagEnd]
  else if c = '/' then t.go .instruction [.closingTagStart]
  else if c = '=' then t.go .instruction [.equals]
  else t.go .instruction [ofChar c]

/-- A character in a declaration inside the declaration of the document type. -/
def declaration (t : Tokenizer) (c : Char) : List Token × Tokenizer :=
  if c = '<' then t.go .bracket []
  else if c = '>' then t.go .doctype [.tagEnd]
  else if c = '"' then t.go (.declarationText .double) [.quote .double]
  else if c = '\'' then t.go (.declarationText .single) [.quote .single]
  else t.go .declaration [ofChar c]

/-- A character after an opening bracket. -/
def bracket (t : Tokenizer) (c : Char) : Option (List Token × Tokenizer) :=
  if c = '?' then some (t.go .instruction [.instructionStart])
  else if c = '/' then some (t.go t.between [.closingTagStart])
  else if c = '!' then some (t.go .exclamation [])
  else if isSpace c || isNameChar c then some (after [.tagStart] (t.outside c))
  else none

/-- A character after an opening bracket and an exclamation mark.  Declarations start with one of
three letters, and inside the declaration of the document type only. -/
def exclamation (t : Tokenizer) (c : Char) : Option (List Token × Tokenizer) :=
  if c = '-' then some (t.go (.opening ['-'] .comment) [])
  else if c = '[' then some (t.go (.opening ['C', 'D', 'A', 'T', 'A', '['] .characterData) [])
  else if c = 'D' then some (t.go (.opening ['O', 'C', 'T', 'Y', 'P', 'E'] .doctype) [])
  else if (c = 'E' ∨ c = 'A' ∨ c = 'N') ∧ t.inDoctype then
    some (t.go .declaration [.declarationStart, .char c])
  else none

/-- Goes on after the word of a mark that opens something. -/
def enter (t : Tokenizer) : Opening → List Token × Tokenizer
  | .comment => t.go .comment [.commentStart]
  | .characterData => t.go .characterData [.sectionStart]
  | .doctype => ([.doctypeStart], { mode := .doctype, inDoctype := true })

/-- A character in the word of a mark that opens something. -/
def opening (t : Tokenizer) (rest : List Char) (what : Opening) (c : Char) :
    Option (List Token × Tokenizer) :=
  match rest with
  | [] => none
  | d :: rest =>
    if c ≠ d then none
    else if rest.isEmpty then some (t.enter what)
    else some (t.go (.opening rest what) [])

/-- A character after closing square brackets among tags and text. -/
def squares (t : Tokenizer) (two : Bool) (c : Char) : List Token × Tokenizer :=
  if two && c == '>' then t.go .content [.sectionEnd]
  else if c = ']' then t.go (.squares true) (if two then [.char ']'] else [])
  else after (if two then [.char ']', .char ']'] else [.char ']']) (t.content c)

/-- A character after closing square brackets in a section of character data. -/
def sectionSquares (t : Tokenizer) (two : Bool) (c : Char) : List Token × Tokenizer :=
  if two && c == '>' then t.go .content [.sectionEnd]
  else if c = ']' then t.go (.sectionSquares true) (if two then [.char ']'] else [])
  else t.go .characterData ((if two then [.char ']', .char ']'] else [.char ']']) ++ [.char c])

/-- A character after hyphens in a comment.  Two hyphens can stand at its end only. -/
def commentHyphens (t : Tokenizer) (two : Bool) (c : Char) : Option (List Token × Tokenizer) :=
  if two then if c = '>' then some (t.go t.between [.commentEnd]) else none
  else if c = '-' then some (t.go (.commentHyphens true) [])
  else some (t.go .comment [.char '-', .char c])

/-- The tokens that a character completes; none if a mark goes on in a way that no mark does. -/
def step (t : Tokenizer) (c : Char) : Option (List Token × Tokenizer) :=
  match t.mode with
  | .content => some (t.content c)
  | .doctype => some (t.doctype c)
  | .bracket => t.bracket c
  | .exclamation => t.exclamation c
  | .opening rest what => t.opening rest what c
  | .slash =>
    if c = '>' then some (t.go t.between [.emptyTagEnd])
    else some (after [.char '/'] (t.outside c))
  | .squares two => some (t.squares two c)
  | .comment =>
    some (if c = '-' then t.go (.commentHyphens false) [] else t.go .comment [.char c])
  | .commentHyphens two => t.commentHyphens two c
  | .characterData =>
    some (if c = ']' then t.go (.sectionSquares false) [] else t.go .characterData [.char c])
  | .sectionSquares two => some (t.sectionSquares two c)
  | .instruction => some (t.instruction c)
  | .instructionMark =>
    some (if c = '>' then t.go t.between [.instructionEnd]
      else after [.char '?'] (t.instruction c))
  | .declaration => some (t.declaration c)
  | .declarationText q =>
    some (if c = q.char then t.go .declaration [.quote q] else t.go (.declarationText q) [.char c])

/-- Whether a document can end here: no mark is incomplete, and nothing is open that a mark has to
close. -/
def canEnd (t : Tokenizer) : Bool := t.mode == .content

end Tokenizer

end ComponentCatalog.Xml
