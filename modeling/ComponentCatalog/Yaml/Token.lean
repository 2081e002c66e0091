import ComponentCatalog.Text.Utf8
import ComponentCatalog.Yaml.Node
import ComponentCatalog.Yaml.Scalar

/-!
# YAML tokens

The words of a YAML text.  Some stand for what is not written: where a block of items or of keys
begins and ends is told by indentation, and that something is a key by the colon after it.  So the
tokens of a text are made with a `Layout`, which knows the columns of the open blocks and the token
that will turn out to be a key if a colon follows.
-/

set_option autoImplicit false

namespace ComponentCatalog.Yaml

/-- A word of a text. -/
inductive Token where
  /-- The version that a document is written in. -/
  | version (major minor : Nat)
  /-- A short form for the start of tags. -/
  | tagHandle (handle start : String)
  | documentStart
  | documentEnd
  /-- The start of a block of items. -/
  | blockSequence
  /-- The start of a block of keys. -/
  | blockMapping
  /-- The end of a block. -/
  | blockEnd
  | flowSequence
  | flowSequenceEnd
  | flowMapping
  | flowMappingEnd
  /-- An item of a block follows. -/
  | item
  /-- The next item of a collection on one line follows. -/
  | separator
  | key
  | value
  | alias (name : String)
  | anchor (name : String)
  | tag (handle suffix : String)
  | scalar (text : String) (style : ScalarStyle)

/-! ## Names and tags -/

/-- The characters of names of anchors, handles and directives. -/
def isWordChar (c : Char) : Bool := c.isAlphanum || c == '_' || c == '-'

/-- The characters that tags are made of; marks of collections only where `marks` allows them. -/
def isTagChar (marks : Bool) (c : Char) : Bool :=
  c.isAlphanum || "-_;/?:@&=+$.!~*'()%".toList.contains c || (marks && ",[]".toList.contains c)

/-- Reads the name of an anchor or alias after its mark. -/
def readAnchorName : Reader Cursor String := do
  let name ← Reader.takeWhile isWordChar
  let rest := (← Reader.source).rest
  Reader.require (!name.isEmpty && (startsBlank rest ||
    (rest.head?.map fun c ↦ "?:,]\x7d%@\u0060".toList.contains c).getD false))
  pure (String.ofList name)

/-- How many bytes a character has that starts with a byte, by the highest bits of the byte. -/
def tagCharLength? (first : Nat) : Option Nat :=
  if first < 0x80 then some 1
  else if first < 0xC0 then none
  else if first < 0xE0 then some 2
  else if first < 0xF0 then some 3
  else if first < 0xF8 then some 4
  else none

/-- The text with bytes in place of pairs of digits after percent signs.  Of a character with
several bytes all have to be written so; `missing` is the number of those that are still to come. -/
def unescapeTag (missing : Nat) : List Char → Option Bytes
  | [] => if missing = 0 then some [] else none
  | '%' :: a :: b :: rest => do
    let byte := (← hexDigit? a) * 16 + (← hexDigit? b)
    let missing ← if missing = 0 then (tagCharLength? byte).map (· - 1)
      else if 0x80 ≤ byte ∧ byte < 0xC0 then some (missing - 1)
      else none
    pure (byte.toUInt8 :: (← unescapeTag missing rest))
  | c :: rest =>
    if c = '%' ∨ missing ≠ 0 then none
    else do pure (c.toNat.toUInt8 :: (← unescapeTag 0 rest))

/-- Reads a tag, or the start of one, and says whether there was anything to read.  A tag goes as
far as to the first zero byte. -/
def readTagText (marks : Bool) : Reader Cursor (String × Bool) := do
  let text ← Reader.takeWhile (isTagChar marks)
  let bytes ← Reader.lift (unescapeTag 0 text)
  pure (Utf8.decodeLossy (bytes.takeWhile (· != 0)), !text.isEmpty)

/-- Reads a tag, or the start of one, which has to be there. -/
def readSomeTagText (marks : Bool) : Reader Cursor String := do
  let (text, some?) ← readTagText marks
  Reader.require some?
  pure text

/-- Reads a tag after its exclamation mark, as a handle and what follows it. -/
def readTag (inFlow : Bool) : Reader Cursor Token := do
  let tag ← if (← Reader.peek?) = some '<' then do
      let _ ← Reader.next
      let text ← readSomeTagText true
      Reader.char '>'
      pure (Token.tag "" text)
    else do
      let word ← Reader.takeWhile isWordChar
      if (← Reader.peek?) = some '!' then
        let _ ← Reader.next
        pure (Token.tag ("!" ++ String.ofList word ++ "!") (← readSomeTagText false))
      else
        let text := String.ofList word ++ (← readTagText false).1
        pure (if text.isEmpty then Token.tag "" "!" else Token.tag "!" text)
  let rest := (← Reader.source).rest
  Reader.require (startsBlank rest || (inFlow && rest.head? == some ','))
  pure tag

/-! ## Directives -/

/-- Reads a number of at most nine digits. -/
def readVersionNumber : Reader Cursor Nat := do
  let digits ← Reader.takeWhile Char.isDigit
  Reader.require (!digits.isEmpty && digits.length ≤ 9)
  pure (digits.foldl (fun n c ↦ n * 10 + (c.toNat - 48)) 0)

/-- Takes blanks, of which there is at least one. -/
def takeBlanks : Reader Cursor Unit := do
  let blanks ← Reader.takeWhile isBlank
  Reader.require !blanks.isEmpty

/-- Reads a directive after its percent sign. -/
def readDirective : Reader Cursor Token := do
  let name ← Reader.takeWhile isWordChar
  takeBlanks
  let token ← match String.ofList name with
    | "YAML" => do
      let major ← readVersionNumber
      Reader.char '.'
      let minor ← readVersionNumber
      pure (Token.version major minor)
    | "TAG" => do
      Reader.char '!'
      let word ← Reader.takeWhile isWordChar
      let handle ← if (← Reader.peek?) = some '!' then do
          let _ ← Reader.next
          pure ("!" ++ String.ofList word ++ "!")
        else do
          Reader.require word.isEmpty
          pure "!"
      takeBlanks
      let start ← readSomeTagText true
      Reader.require (startsBlank (← Reader.source).rest)
      pure (Token.tagHandle handle start)
    | _ => Reader.fail
  takeLineEnd
  let _ ← takeBreak
  pure token

/-! ## Layout -/

/-- A token that is a key if a colon follows on its line. -/
structure KeyCandidate where
  /-- The number of tokens before it. -/
  place : Nat
  /-- Whether it has to be a key, because it stands where keys of a block stand. -/
  required : Bool
  start : Cursor

/-- The tokens so far, and what the next ones depend on. -/
structure Layout where
  tokens : Array Token := #[]
  /-- The columns of the open blocks, innermost first. -/
  blocks : List Nat := []
  candidate? : Option KeyCandidate := none
  /-- The candidates around the open collections that are written on one line. -/
  outer : List (Option KeyCandidate) := []
  /-- Whether a key can start here. -/
  keyAllowed : Bool := true
  /-- Where the next token starts. -/
  here : Cursor

namespace Layout

/-- Whether the next token stands in a collection that is written on one line. -/
def inFlow (l : Layout) : Bool := !l.outer.isEmpty

/-- The least column at which something inside the innermost block can start. -/
def innerColumn (l : Layout) : Nat :=
  match l.blocks with
  | [] => 0
  | column :: _ => column + 1

/-- Adds a token. -/
def emit (l : Layout) (t : Token) : Layout := { l with tokens := l.tokens.push t }

/-- Inserts a token after the first `place` ones. -/
def insert (l : Layout) (place : Nat) (t : Token) : Layout :=
  { l with tokens := l.tokens.insertIdxIfInBounds place t }

/-- Gives up the candidate for a key; none if it has to be one. -/
def dropCandidate (l : Layout) : Option Layout :=
  match l.candidate? with
  | some k => if k.required then none else some { l with candidate? := none }
  | none => some l

/-- Makes the next token the candidate for a key. -/
def saveCandidate (l : Layout) : Option Layout :=
  if l.keyAllowed then do
    let l ← l.dropCandidate
    let required := !l.inFlow && l.blocks.head? == some l.here.column
    some { l with candidate? := some ⟨l.tokens.size, required, l.here⟩ }
  else some l

/-- How far a key may be from its colon. -/
def keyLengthLimit : Nat := 1024

/-- Whether a candidate cannot be a key any more. -/
def isStale (here : Cursor) (k : KeyCandidate) : Bool :=
  k.start.line < here.line || k.start.index + keyLengthLimit < here.index

/-- A candidate that still can be a key; none if it has to be one and cannot. -/
def refresh (here : Cursor) : Option KeyCandidate → Option (Option KeyCandidate)
  | none => some none
  | some k => if isStale here k then if k.required then none else some none else some (some k)

/-- Gives up all candidates that cannot be keys any more. -/
def dropStale (l : Layout) : Option Layout := do
  let candidate? ← refresh l.here l.candidate?
  let outer ← l.outer.mapM (refresh l.here)
  pure { l with candidate?, outer }

/-- Opens a block at a column, unless it is open, with a token after the first `place` ones. -/
def openBlock (l : Layout) (column place : Nat) (t : Token) : Layout :=
  if !l.inFlow && l.innerColumn ≤ column then
    { l.insert place t with blocks := column :: l.blocks }
  else l

/-- Closes blocks, innermost first, while `closes` holds of their columns. -/
def closeWhile (closes : Nat → Bool) : List Nat → Array Token → List Nat × Array Token
  | [], tokens => ([], tokens)
  | column :: blocks, tokens =>
    if closes column then closeWhile closes blocks (tokens.push .blockEnd)
    else (column :: blocks, tokens)

/-- Closes the blocks that a token at a column is not in. -/
def closeTo (l : Layout) (column : Nat) : Layout :=
  if l.inFlow then l
  else
    let (blocks, tokens) := closeWhile (fun c ↦ decide (column < c)) l.blocks l.tokens
    { l with blocks, tokens }

/-- Closes all blocks. -/
def closeAll (l : Layout) : Layout :=
  if l.inFlow then l
  else
    let (blocks, tokens) := closeWhile (fun _ ↦ true) l.blocks l.tokens
    { l with blocks, tokens }

/-- Leaves a collection that is written on one line. -/
def leaveFlow (l : Layout) : Layout :=
  match l.outer with
  | [] => l
  | candidate? :: outer => { l with candidate?, outer }

/-! ### Tokens of one character -/

/-- A mark that opens a collection on one line. -/
def openFlow (l : Layout) (t : Token) : Option Layout := do
  let l ← l.saveCandidate
  pure ({ l with
    outer := l.candidate? :: l.outer, candidate? := none, keyAllowed := true }.emit t)

/-- A mark that closes a collection on one line. -/
def closeFlow (l : Layout) (t : Token) : Option Layout := do
  let l ← l.dropCandidate
  pure ({ l.leaveFlow with keyAllowed := false }.emit t)

/-- A comma. -/
def addSeparator (l : Layout) : Option Layout := do
  let l ← l.dropCandidate
  pure ({ l with keyAllowed := true }.emit .separator)

/-- A hyphen before an item of a block. -/
def addItem (l : Layout) : Option Layout := do
  let l ← if l.inFlow then some l
    else if l.keyAllowed then some (l.openBlock l.here.column l.tokens.size .blockSequence)
    else none
  let l ← l.dropCandidate
  pure ({ l with keyAllowed := true }.emit .item)

/-- A question mark before a key. -/
def addKey (l : Layout) : Option Layout := do
  let l ← if l.inFlow then some l
    else if l.keyAllowed then some (l.openBlock l.here.column l.tokens.size .blockMapping)
    else none
  let l ← l.dropCandidate
  pure ({ l with keyAllowed := !l.inFlow }.emit .key)

/-- A colon.  It makes the candidate a key; without one the key is empty. -/
def addValue (l : Layout) : Option Layout :=
  match l.candidate? with
  | some k =>
    let l := (l.insert k.place .key).openBlock k.start.column k.place .blockMapping
    some ({ l with candidate? := none, keyAllowed := false }.emit .value)
  | none =>
    if l.inFlow then some ({ l with keyAllowed := false }.emit .value)
    else if l.keyAllowed then
      some ({ l.openBlock l.here.column l.tokens.size .blockMapping with keyAllowed := true }.emit
        .value)
    else none

/-! ### All tokens -/

/-- Takes blanks, comments and line breaks.  In a block, tabs cannot stand where a key can.  A mark
of the byte order can stand at the start of every line, where it takes a column. -/
def skip (l : Layout) : Reader Cursor Layout := do
  let keyAllowed ← Reader.loopUntil
    (fun (keyAllowed : Bool) (s : Cursor) ↦
      match s.rest with
      | [] => some keyAllowed
      | c :: _ =>
        if c == ' ' || c == '#' || isBreak c || s.atByteOrderMark ||
            (c == '\t' && (l.inFlow || !keyAllowed)) then none
        else some keyAllowed)
    (fun keyAllowed c ↦ do
      if isBreak c then pure (keyAllowed || !l.inFlow)
      else
        if c = '#' then
          let _ ← Reader.takeWhile (!isBreak ·)
        pure keyAllowed) l.keyAllowed
  pure { l with keyAllowed, here := ← Reader.source }

/-- A line that starts or ends a document. -/
def addDocumentMark (l : Layout) (t : Token) : Reader Cursor Layout := do
  let _ ← Reader.next
  let _ ← Reader.next
  let l ← Reader.lift l.closeAll.dropCandidate
  pure ({ l with keyAllowed := false }.emit t)

/-- A token that can be a key. -/
def addPossibleKey (l : Layout) (t : Reader Cursor Token) : Reader Cursor Layout := do
  let l ← Reader.lift l.saveCandidate
  pure ({ l with keyAllowed := false }.emit (← t))

/-- The characters that a plain scalar cannot start with. -/
def isMark (c : Char) : Bool := "-?:,[]\x7b\x7d#&*!|>'\"%@\u0060".toList.contains c

/-- Whether a plain scalar starts with `c`, which `rest` follows. -/
def startsPlain (inFlow : Bool) (c : Char) (rest : List Char) : Bool :=
  !(isMark c || isBlank c || isBreak c) ||
    (c == '-' && !((rest.head?.map isBlank).getD false)) ||
    (!inFlow && (c == '?' || c == ':') && !startsBlank rest)

/-- Adds the token that starts with `c`, which `rest` follows. -/
def addToken (l : Layout) (c : Char) (rest : List Char) : Reader Cursor Layout := do
  let flow := l.inFlow
  if l.here.column = 0 ∧ c = '%' then
    let l ← Reader.lift l.closeAll.dropCandidate
    pure ({ l with keyAllowed := false }.emit (← readDirective))
  else if l.here.atDocumentMark then
    l.addDocumentMark (if c = '-' then .documentStart else .documentEnd)
  else if c = '[' then Reader.lift (l.openFlow .flowSequence)
  else if c = '{' then Reader.lift (l.openFlow .flowMapping)
  else if c = ']' then Reader.lift (l.closeFlow .flowSequenceEnd)
  else if c = '}' then Reader.lift (l.closeFlow .flowMappingEnd)
  else if c = ',' then Reader.lift l.addSeparator
  else if c = '-' ∧ startsBlank rest then Reader.lift l.addItem
  else if c = '?' ∧ (flow ∨ startsBlank rest) then Reader.lift l.addKey
  else if c = ':' ∧ (flow ∨ startsBlank rest) then Reader.lift l.addValue
  else if c = '*' then l.addPossibleKey (Token.alias <$> readAnchorName)
  else if c = '&' then l.addPossibleKey (Token.anchor <$> readAnchorName)
  else if c = '!' then l.addPossibleKey (readTag flow)
  else if (c = '|' ∨ c = '>') ∧ ¬flow then
    let l ← Reader.lift l.dropCandidate
    let text ← readBlock (c == '>') l.innerColumn
    let style := if c = '>' then ScalarStyle.folded else ScalarStyle.literal
    pure ({ l with keyAllowed := true }.emit (.scalar text style))
  else if c = '\'' then
    l.addPossibleKey do pure (Token.scalar (← readSingleQuoted) .singleQuoted)
  else if c = '"' then
    l.addPossibleKey do pure (Token.scalar (← readDoubleQuoted) .doubleQuoted)
  else if startsPlain flow c rest then
    let l ← Reader.lift l.saveCandidate
    let (text, broken) ← readPlain flow l.innerColumn c
    pure ({ l with keyAllowed := broken }.emit (.scalar text .plain))
  else Reader.fail

/-- Adds the next token and skips to the one after it. -/
def step (l : Layout) (c : Char) : Reader Cursor Layout := do
  let l ← Reader.lift l.dropStale
  let l ← (l.closeTo l.here.column).addToken c (l.here.rest.drop 1)
  l.skip

/-- All tokens, once the text is at its end. -/
def finish? (l : Layout) : Option (Array Token) := do
  let l ← l.dropStale
  let l ← l.closeAll.dropCandidate
  pure l.tokens

end Layout

/-- The tokens of a text. -/
def Token.ofText? (text : String) : Option (Array Token) := do
  let start ← Cursor.ofText? text
  let read : Reader Cursor Layout := do
    Reader.loopToEnd Layout.step (← Layout.skip { here := start })
  (← read.read start).finish?

end ComponentCatalog.Yaml
