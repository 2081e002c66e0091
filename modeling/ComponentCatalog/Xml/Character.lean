/-!
# Characters of documents

Which characters a document may hold, and which of them names are made of.  A document may write
version 1.0 or version 1.1; the later version has more characters, but the control characters among
them can only be written by references.
-/

set_option autoImplicit false

namespace ComponentCatalog.Xml

/-- The versions of the document format. -/
inductive Version where
  | v10
  | v11
deriving DecidableEq, Repr

/-- The characters that can stand between the parts of markup. -/
def isSpace (c : Char) : Bool := c = ' ' || c = '\t' || c = '\n' || c = '\r'

/-- The characters that stand in a document, however they are written. -/
def Version.allows (v : Version) (c : Char) : Bool :=
  let n := c.toNat
  match v with
  | v10 => n == 0x9 || n == 0xA || n == 0xD || (0x20 ≤ n && n ≤ 0xFFFD) || 0x10000 ≤ n
  | v11 => (0x1 ≤ n && n ≤ 0xFFFD) || 0x10000 ≤ n

/-- The characters that can be written as themselves. -/
def Version.allowsPlain (v : Version) (c : Char) : Bool :=
  let n := c.toNat
  match v with
  | v10 => v.allows c
  | v11 =>
    v.allows c && !(n ≤ 0x8 || n == 0xB || n == 0xC || (0xE ≤ n && n ≤ 0x1F) ||
      (0x7F ≤ n && n ≤ 0x84) || (0x86 ≤ n && n ≤ 0x9F))

/-- The characters that a name can start with. -/
def isNameStart (c : Char) : Bool :=
  let n := c.toNat
  c = ':' || c = '_' || c.isAlpha || (0xC0 ≤ n && n ≤ 0xD6) || (0xD8 ≤ n && n ≤ 0xF6) ||
    (0xF8 ≤ n && n ≤ 0x2FF) || (0x370 ≤ n && n ≤ 0x37D) || (0x37F ≤ n && n ≤ 0x1FFF) ||
    (0x200C ≤ n && n ≤ 0x200D) || (0x2070 ≤ n && n ≤ 0x218F) || (0x2C00 ≤ n && n ≤ 0x2FEF) ||
    (0x3001 ≤ n && n ≤ 0xD7FF) || (0xF900 ≤ n && n ≤ 0xFDCF) || (0xFDF0 ≤ n && n ≤ 0xFFFD) ||
    (0x10000 ≤ n && n ≤ 0xEFFFF)

/-- The characters that a name can go on with. -/
def isNameChar (c : Char) : Bool :=
  let n := c.toNat
  isNameStart c || c = '-' || c = '.' || c.isDigit || n == 0xB7 || (0x300 ≤ n && n ≤ 0x36F) ||
    (0x203F ≤ n && n ≤ 0x2040)

/-- A name as it is written, with the name of its name space in front where it has one. -/
structure QualifiedName where
  space? : Option String
  name : String
deriving DecidableEq, Repr

/-- Reads a name: at most one colon, and something on both sides of it. -/
def QualifiedName.ofChars? (cs : List Char) : Option QualifiedName :=
  match cs.dropWhile (· != ':') with
  | [] => if cs.isEmpty then none else some ⟨none, String.ofList cs⟩
  | _ :: name =>
    let space := cs.takeWhile (· != ':')
    if space.isEmpty || name.isEmpty || name.contains ':' then none
    else some ⟨some (String.ofList space), String.ofList name⟩

end ComponentCatalog.Xml
