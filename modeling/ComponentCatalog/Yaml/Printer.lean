import ComponentCatalog.Yaml.Node
import ComponentCatalog.Yaml.PlainScalar

/-!
# Printing YAML

`Node.print` writes a node over several lines: two blanks for each level, and the items of a
sequence at the column of their key.

`Node.ofText` chooses the style of a scalar: plain if that is possible and would be read as the same
text, in single quotes otherwise, in double quotes if something has to be escaped, and as a block if
there are line feeds.
-/

set_option autoImplicit false

namespace ComponentCatalog.Yaml

/-! ## Styles -/

/-- The characters that are written as themselves: those of a line, and line feeds. -/
def isShown (c : Char) : Bool :=
  let n := c.toNat
  n == 0xA || (0x20 ≤ n && n ≤ 0x7E) || (0xA0 ≤ n && n ≤ 0xFFFD && n != 0xFEFF) || 0x10000 ≤ n

/-- The characters that end a line in a text to be written. -/
def endsLine (c : Char) : Bool := isBreak c || c = '\r' || c = '\u0085'

/-- Whether a text to be written starts with a blank, with the end of a line or not at all. -/
def startsWithGap : List Char → Bool
  | [] => true
  | c :: _ => isBlank c || endsLine c

/-- Whether two characters of which `first` holds and then `second` follow one another. -/
def hasPair (first second : Char → Bool) : List Char → Bool
  | c :: d :: rest => (first c && second d) || hasPair first second (d :: rest)
  | _ => false

/-- Whether a text has a mark inside that would end a plain scalar. -/
def hasInnerMark : List Char → Bool
  | c :: d :: rest =>
    (d == ':' && startsWithGap rest) || (d == '#' && (isBlank c || endsLine c)) ||
      hasInnerMark (d :: rest)
  | _ => false

/-- Whether a text starts with a mark that no plain scalar starts with. -/
def startsWithMark : List Char → Bool
  | [] => false
  | c :: rest =>
    "#,[]\x7b\x7d&*!|>'\"%@\u0060".toList.contains c ||
      ((c == '?' || c == ':' || c == '-') && startsWithGap rest) ||
      ['-', '-', '-'].isPrefixOf (c :: rest) || ['.', '.', '.'].isPrefixOf (c :: rest)

/-- Whether a text can only be written with escapes. -/
def needsEscapes (cs : List Char) : Bool :=
  !cs.all isShown || hasPair (· == ' ') endsLine cs

/-- Whether a text can be written in single quotes. -/
def canBeQuoted (cs : List Char) : Bool := !needsEscapes cs && !hasPair endsLine (· == ' ') cs

/-- Whether a text can be written plain. -/
def canBePlain (cs : List Char) : Bool :=
  canBeQuoted cs && !cs.any endsLine && cs.head? != some ' ' && cs.getLast? != some ' ' &&
    !startsWithMark cs && !hasInnerMark cs

/-- Whether a text can be written as a block of lines. -/
def canBeBlock (cs : List Char) : Bool := !needsEscapes cs && cs.getLast? != some ' '

/-- The style in which a text is written. -/
def styleOf (text : String) : ScalarStyle :=
  let cs := text.toList
  if cs.contains '\n' then if canBeBlock cs then .literal else .doubleQuoted
  else if canBePlain cs && !PlainScalar.isAmbiguous text then .plain
  else if canBeQuoted cs then .singleQuoted
  else .doubleQuoted

/-- A text as a scalar. -/
def Node.ofText (text : String) : Node := .scalar text (styleOf text) none

/-- A truth value as a scalar. -/
def Node.ofBool (b : Bool) : Node := .scalar (if b then "true" else "false") .plain none

/-- A number as a scalar. -/
def Node.ofNat (n : Nat) : Node := .scalar (toString n) .plain none

/-! ## Scalars -/

/-- A digit of a hexadecimal number. -/
def hexDigitOf (n : Nat) : Char := Char.ofNat (if n < 10 then 48 + n else 55 + n)

/-- A number with `count` hexadecimal digits. -/
def hexDigits : Nat → Nat → List Char
  | 0, _ => []
  | count + 1, n => hexDigits count (n / 16) ++ [hexDigitOf (n % 16)]

/-- The letters of escapes. -/
def escapeLetters : List (Nat × Char) := [
  (0x00, '0'), (0x07, 'a'), (0x08, 'b'), (0x09, 't'), (0x0A, 'n'), (0x0B, 'v'), (0x0C, 'f'),
  (0x0D, 'r'), (0x1B, 'e'), (0x22, '"'), (0x5C, '\\'), (0x85, 'N'), (0xA0, '_'), (0x2028, 'L'),
  (0x2029, 'P')]

/-- A character as it is written in double quotes. -/
def escape (c : Char) : List Char :=
  if isShown c && !endsLine c && c != '"' && c != '\\' then [c]
  else
    match escapeLetters.lookup c.toNat with
    | some letter => ['\\', letter]
    | none =>
      if c.toNat ≤ 0xFF then '\\' :: 'x' :: hexDigits 2 c.toNat
      else if c.toNat ≤ 0xFFFF then '\\' :: 'u' :: hexDigits 4 c.toNat
      else '\\' :: 'U' :: hexDigits 8 c.toNat

/-- A text in double quotes. -/
def doubleQuote (text : String) : String :=
  String.ofList ('"' :: text.toList.flatMap escape ++ ['"'])

/-- Blanks for a column. -/
def padding (column : Nat) : List Char := List.replicate column ' '

/-- The characters between single quotes, where lines go on at `column`; so does a line without any
characters before the last quote. -/
def singleQuoted (column : Nat) (atStart : Bool) : List Char → List Char
  | [] => if atStart then padding column else []
  | c :: rest =>
    if isBreak c then c :: singleQuoted column true rest
    else
      (if atStart then padding column else []) ++ (if c = '\'' then ['\'', '\''] else [c]) ++
        singleQuoted column false rest

/-- A text in single quotes; if it has several lines, they go on at `column`. -/
def singleQuote (column : Nat) (text : String) : String :=
  String.ofList ('\'' :: singleQuoted column false text.toList ++ ['\''])

/-- The lines of a block, each that is not empty at `column`. -/
def blockLines (column : Nat) (atStart : Bool) : List Char → List Char
  | [] => []
  | c :: rest =>
    if isBreak c then c :: blockLines column true rest
    else (if atStart then padding column else []) ++ c :: blockLines column false rest

/-- The signs after the mark of a block: its indentation, where the text starts with a blank or a
break, and what happens to the breaks at its end. -/
def blockSigns (cs : List Char) : List Char :=
  let indentation :=
    if (cs.head?.map fun c ↦ c == ' ' || endsLine c).getD false then ['2'] else []
  let ending :=
    match cs.reverse with
    | [] => ['-']
    | c :: before =>
      if !endsLine c then ['-']
      else
        match before with
        | [] => ['+']
        | d :: _ => if endsLine d then ['+'] else []
  indentation ++ ending

/-- A block, its lines at `column`. -/
def block (mark : Char) (column : Nat) (text : String) : String :=
  String.ofList (mark :: blockSigns text.toList ++ '\n' :: blockLines column true text.toList)

/-- A scalar; if it has several lines, they are at `column`. -/
def scalarText (column : Nat) (text : String) : ScalarStyle → String
  | .plain => text
  | .singleQuoted => singleQuote column text
  | .doubleQuoted => doubleQuote text
  | .literal => block '|' column text
  | .folded => block '>' column text

/-! ## Nodes -/

/-- A scalar and the end of its last line, which a block can have as part of its text. -/
def scalarLine (column : Nat) (text : String) (style : ScalarStyle) : String :=
  let written := scalarText column text style
  if (written.toList.getLast?.map isBreak).getD false then written else written ++ "\n"

/-- Blanks for a column. -/
def pad (column : Nat) : String := String.ofList (padding column)

/-- A scalar as a key. -/
def keyText : Node → String
  | .scalar text style _ => scalarText 0 text style
  | _ => "?"

mutual

/-- A node after its key, which stands at `column`. -/
def printValue (column : Nat) : Node → String
  | .scalar text style _ => " " ++ scalarLine (column + 2) text style
  | .sequence [] => " []\n"
  | .sequence items => "\n" ++ printItems column items
  | .mapping [] => " \x7b\x7d\n"
  | .mapping entries => "\n" ++ printEntries (column + 2) entries

/-- A node after the hyphen of its item, which stands at `column`. -/
def printItem (column : Nat) : Node → String
  | .scalar text style _ => " " ++ scalarLine (column + 2) text style
  | .sequence [] => " []\n"
  | .sequence (item :: items) =>
    " -" ++ printItem (column + 2) item ++ printItems (column + 2) items
  | .mapping [] => " \x7b\x7d\n"
  | .mapping ((key, value) :: entries) =>
    " " ++ keyText key ++ ":" ++ printValue (column + 2) value ++ printEntries (column + 2) entries

/-- Items at a column. -/
def printItems (column : Nat) : List Node → String
  | [] => ""
  | item :: items => pad column ++ "-" ++ printItem column item ++ printItems column items

/-- Keys at a column, with their values. -/
def printEntries (column : Nat) : List (Node × Node) → String
  | [] => ""
  | (key, value) :: entries =>
    pad column ++ keyText key ++ ":" ++ printValue column value ++ printEntries column entries

end

/-- A node as a whole document. -/
def Node.print : Node → String
  | .scalar text style _ => scalarLine 2 text style
  | .sequence [] => "[]\n"
  | .sequence items => printItems 0 items
  | .mapping [] => "\x7b\x7d\n"
  | .mapping entries => printEntries 0 entries

end ComponentCatalog.Yaml
