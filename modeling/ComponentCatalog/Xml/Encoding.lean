import ComponentCatalog.Text.Utf8
import ComponentCatalog.Xml.Reference
import ComponentCatalog.Xml.Source

/-!
# Encodings

How the bytes of a document write its text.  A mark at the start of the bytes, or else the
declaration at the start of the document, names the encoding; without either it is UTF-8.

The declaration ends where a question mark and a closing bracket stand together for the first time.
In a document without a mark it is always UTF-8, and what it says about the encoding goes for the
text after it.
-/

set_option autoImplicit false

namespace ComponentCatalog.Xml

/-- The encodings of documents. -/
inductive Encoding where
  | utf8
  | utf16
  /-- One byte for each of the first 256 characters. -/
  | latin1
  | ascii
deriving DecidableEq, Repr

namespace Encoding

/-- The labels of an encoding, lower-case. -/
def labels : List (String × Encoding) := [
  ("utf-8", utf8), ("utf8", utf8), ("iso-8859-1", latin1), ("latin1", latin1), ("utf-16", utf16),
  ("utf16", utf16), ("ascii", ascii), ("us-ascii", ascii)]

/-- The encoding that a label stands for, in whatever case.  Labels are compared as far as the
shorter one goes. -/
def ofLabel? (label : String) : Option Encoding :=
  let label := label.toList.map (·.toLower)
  (labels.find? fun (known, _) ↦
    (known.toList.zip label).all fun (a, b) ↦ a == b).map (·.2)

/-- The text that units of sixteen bits write. -/
def decodeUnits : List Nat → Option (List Char)
  | [] => some []
  | high :: low :: rest =>
    if 0xD800 ≤ high ∧ high < 0xDC00 ∧ 0xDC00 ≤ low ∧ low < 0xE000 then
      (decodeUnits rest).map (Char.ofNat (0x10000 + (high - 0xD800) * 1024 + (low - 0xDC00)) :: ·)
    else if 0xD800 ≤ high ∧ high < 0xE000 then none
    else (decodeUnits (low :: rest)).map (Char.ofNat high :: ·)
  | [unit] => if 0xD800 ≤ unit ∧ unit < 0xE000 then none else some [Char.ofNat unit]

/-- The units of sixteen bits that bytes write, each given by the number that `unit` makes of its
two bytes. -/
def unitsOf (unit : Nat → Nat → Nat) : Bytes → Option (List Nat)
  | [] => some []
  | [_] => none
  | a :: b :: rest => (unitsOf unit rest).map (unit a.toNat b.toNat :: ·)

/-- The bytes as characters with the same numbers. -/
def bytesAsChars (bytes : Bytes) : List Char := bytes.map fun b ↦ Char.ofNat b.toNat

/-- The text that bytes write, in an encoding that needs no mark. -/
def decodePlain : Encoding → Bytes → Option (List Char)
  | utf8, bytes => Utf8.decode bytes
  | latin1, bytes => some (bytesAsChars bytes)
  | ascii, bytes => if bytes.all (·.toNat < 0x80) then some (bytesAsChars bytes) else none
  | utf16, _ => none

end Encoding

/-! ## The declaration of a document -/

/-- What a document declares about itself. -/
structure Declaration where
  version : Version := .v10
  encoding? : Option String := none

namespace Declaration

/-- The version that a declaration names. -/
def version? (text : String) : Option Version :=
  if text = "1.0" then some .v10 else if text = "1.1" then some .v11 else none

/-- Reads a reference after its ampersand.  There are no entities yet. -/
def reference (version : Version) : Reader Source Char := do
  let first ← Reader.next
  let start ← Reader.lift (Reference.add? [] first)
  let rest ← Reader.takeWhile isNameChar
  Reader.char ';'
  match ← Reader.lift (Reference.resolve? version .empty (start ++ rest)) with
  | .character c => pure c
  | .entity _ => Reader.fail

/-- Reads the value of a field, which starts with a quote. -/
def value (version : Version) : Reader Source String := do
  let quote ← Reader.next
  Reader.require (quote == '"' || quote == '\'')
  let reversed ← Reader.loop (fun reversed c ↦ do
    if c = quote then pure (.done reversed)
    else if c = '&' then
      let c ← reference version
      pure (.next (c :: reversed))
    else
      Reader.require (c != '<' && version.allowsPlain c)
      pure (.next (c :: reversed))) []
  pure (String.ofList reversed.reverse)

/-- Reads a field: its name, an equals sign, and its value, with blanks around the sign.  After its
first letter a name can have the name of a name space and a colon. -/
def field (version : Version) (first : Char) (name : String) : Reader Source String := do
  Reader.char first
  let start ← Reader.next
  Reader.require (isNameStart start)
  let rest ← Reader.takeWhile isNameChar
  let known ← Reader.lift (QualifiedName.ofChars? (start :: rest))
  Reader.require (known.name == name)
  let _ ← Reader.takeWhile isSpace
  Reader.char '='
  let _ ← Reader.takeWhile isSpace
  value version

/-- The fields of a declaration that can be left out. -/
inductive Optional where
  | encoding (label : String)
  | standalone
  | nothing

/-- Reads an optional field, and a blank before it. -/
def optional (version : Version) : Reader Source Optional := do
  let blank ← Reader.takeWhile isSpace
  let first? ← Reader.peek?
  if first? = some 'e' then
    Reader.require !blank.isEmpty
    return .encoding (← field version 'e' "ncoding")
  else if first? = some 's' then
    Reader.require !blank.isEmpty
    let value ← field version 's' "tandalone"
    Reader.require (value == "yes" || value == "no")
    return .standalone
  else return .nothing

/-- What a declaration starts with, without the blank after it. -/
def opening : List Char := ['<', '?', 'x', 'm', 'l']

/-- Reads a declaration. -/
def declaration : Reader Source Declaration := do
  Reader.word opening
  let blank ← Reader.takeWhile isSpace
  Reader.require !blank.isEmpty
  let version ← Reader.lift (version? (← field .v10 'v' "ersion"))
  let declaration ← match ← optional version with
    | .encoding label =>
      match ← optional version with
      | .encoding _ => Reader.fail
      | _ => pure { version, encoding? := some label }
    | _ => pure { version }
  let _ ← Reader.takeWhile isSpace
  Reader.word ['?', '>']
  pure declaration

/-- The declaration that a text is. -/
def read (text : List Char) : Option Declaration := do
  let taken ← declaration { own := text }
  if taken.rest.own.isEmpty then pure taken.value else none

/-- Whether a text starts with a declaration. -/
def startsText (text : List Char) : Bool :=
  opening.isPrefixOf text && ((text.drop opening.length).head?.map isSpace).getD false

/-- The length of a declaration that a text starts with, its closing included. -/
def length? : List Char → Option Nat
  | '?' :: '>' :: _ => some 2
  | _ :: rest => (length? rest).map (· + 1)
  | [] => none

end Declaration

/-! ## Decoding a document -/

/-- The declaration of a document and the text after it, by a decoded text and the encoding that was
marked. -/
def splitMarked (marked : Encoding) (text : List Char) : Option (Declaration × List Char) :=
  if Declaration.startsText text then do
    let length ← Declaration.length? text
    let declaration ← Declaration.read (text.take length)
    let rest := text.drop length
    match declaration.encoding? with
    | none => pure (declaration, rest)
    | some label => if Encoding.ofLabel? label = some marked then pure (declaration, rest) else none
  else some ({}, text)

/-- The declaration of a document without a mark and the text after it. -/
def splitUnmarked (bytes : Bytes) : Option (Declaration × List Char) :=
  let text := Encoding.bytesAsChars bytes
  if Declaration.startsText text then do
    let length ← Declaration.length? text
    let declaration ← Declaration.read (← Utf8.decode (bytes.take length))
    let encoding ← match declaration.encoding? with
      | none => some .utf8
      | some label => Encoding.ofLabel? label
    pure (declaration, ← encoding.decodePlain (bytes.drop length))
  else (Utf8.decode bytes).map ({}, ·)

/-- The declaration of a document and the text after it. -/
def decodeDocument : Bytes → Option (Declaration × List Char)
  | 0xEF :: 0xBB :: 0xBF :: rest => do splitMarked .utf8 (← Utf8.decode rest)
  | 0xFE :: 0xFF :: rest => do
    let units ← Encoding.unitsOf (fun a b ↦ a * 256 + b) rest
    splitMarked .utf16 (← Encoding.decodeUnits units)
  | 0xFF :: 0xFE :: rest => do
    let units ← Encoding.unitsOf (fun a b ↦ b * 256 + a) rest
    splitMarked .utf16 (← Encoding.decodeUnits units)
  | bytes => splitUnmarked bytes

end ComponentCatalog.Xml
