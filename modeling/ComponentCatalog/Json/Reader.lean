import ComponentCatalog.Json.Value

/-!
# Reading JSON

`Json.read` reads one value that fills a whole text, blanks around it apart.  The grammar is the
standard one: no comments, no trailing commas, no leading zeros, no control characters in strings.

Each function takes the characters that are left and gives back what it read with the characters
after it.  The readers of values take as many steps at most as there are characters.
-/

set_option autoImplicit false

namespace ComponentCatalog.Json

/-! ## Blanks, literals and numbers -/

/-- The blanks between the parts of a text. -/
def isSpace (c : Char) : Bool := c = ' ' || c = '\n' || c = '\t' || c = '\r'

/-- What follows the blanks. -/
def skipSpace (cs : List Char) : List Char := cs.dropWhile isSpace

/-- What follows `word`, if the text goes on with it. -/
def afterWord (word : List Char) (cs : List Char) : Option (List Char) :=
  if word.isPrefixOf cs then some (cs.drop word.length) else none

/-- One digit or more. -/
def readDigits (cs : List Char) : Option (List Char × List Char) :=
  match cs.takeWhile Char.isDigit with
  | [] => none
  | digits => some (digits, cs.dropWhile Char.isDigit)

/-- The digits of a whole number: zero, or digits that do not start with a zero. -/
def readWhole : List Char → Option (List Char × List Char)
  | '0' :: rest => if (rest.head?.map Char.isDigit).getD false then none else some (['0'], rest)
  | cs => readDigits cs

/-- The fraction of a number, possibly empty. -/
def readFraction : List Char → Option (List Char × List Char)
  | '.' :: rest => (readDigits rest).map fun (digits, rest) ↦ ('.' :: digits, rest)
  | cs => some ([], cs)

/-- The exponent of a number, possibly empty. -/
def readExponent : List Char → Option (List Char × List Char)
  | c :: rest =>
    if c = 'e' ∨ c = 'E' then
      match rest with
      | '+' :: rest => (readDigits rest).map fun (digits, rest) ↦ (c :: '+' :: digits, rest)
      | '-' :: rest => (readDigits rest).map fun (digits, rest) ↦ (c :: '-' :: digits, rest)
      | rest => (readDigits rest).map fun (digits, rest) ↦ (c :: digits, rest)
    else some ([], c :: rest)
  | [] => some ([], [])

/-- A number. -/
def readNumber (cs : List Char) : Option (Json × List Char) := do
  let (sign, cs) := match cs with
    | '-' :: rest => (['-'], rest)
    | cs => ([], cs)
  let (whole, cs) ← readWhole cs
  let (fraction, cs) ← readFraction cs
  let (exponent, cs) ← readExponent cs
  pure (.number (String.ofList (sign ++ whole ++ fraction ++ exponent)), cs)

/-! ## Strings -/

/-- A piece of a string literal: a character, or a code unit given by its number. -/
inductive Piece where
  | char (c : Char)
  | unit (code : Nat)

/-- The value of a hexadecimal digit. -/
def hexValue (c : Char) : Option Nat :=
  if c.isDigit then some (c.toNat - 48)
  else if 'a' ≤ c ∧ c ≤ 'f' then some (c.toNat - 87)
  else if 'A' ≤ c ∧ c ≤ 'F' then some (c.toNat - 55)
  else none

/-- The character behind a one-letter escape. -/
def unescape (c : Char) : Option Char :=
  match c with
  | '"' => some '"'
  | '\\' => some '\\'
  | '/' => some '/'
  | 'b' => some (Char.ofNat 8)
  | 'f' => some (Char.ofNat 12)
  | 'n' => some '\n'
  | 'r' => some '\r'
  | 't' => some '\t'
  | _ => none

/-- The pieces of a string literal up to its closing quote. -/
def readPieces : List Char → Option (List Piece × List Char)
  | [] => none
  | '"' :: rest => some ([], rest)
  | '\\' :: 'u' :: a :: b :: c :: d :: rest => do
    let code := (((← hexValue a) * 16 + (← hexValue b)) * 16 + (← hexValue c)) * 16 + (← hexValue d)
    let (pieces, rest) ← readPieces rest
    pure (.unit code :: pieces, rest)
  | '\\' :: c :: rest => do
    let c ← unescape c
    let (pieces, rest) ← readPieces rest
    pure (.char c :: pieces, rest)
  | c :: rest =>
    if c.toNat < 32 || c = '\\' then none
    else (readPieces rest).map fun (pieces, rest) ↦ (.char c :: pieces, rest)

/-- The text of the pieces, if every half of a surrogate pair has its other half. -/
def joinPieces : List Piece → Option (List Char)
  | [] => some []
  | .char c :: rest => (joinPieces rest).map (c :: ·)
  | .unit high :: .unit low :: rest =>
    if 0xD800 ≤ high ∧ high < 0xDC00 ∧ 0xDC00 ≤ low ∧ low < 0xE000 then
      (joinPieces rest).map (Char.ofNat (0x10000 + (high - 0xD800) * 1024 + (low - 0xDC00)) :: ·)
    else if 0xD800 ≤ high ∧ high < 0xE000 then none
    else (joinPieces (.unit low :: rest)).map (Char.ofNat high :: ·)
  | .unit code :: rest =>
    if 0xD800 ≤ code ∧ code < 0xE000 then none
    else (joinPieces rest).map (Char.ofNat code :: ·)

/-- A string literal after its opening quote; its text is missing where a half of a surrogate pair
stands alone. -/
def readText (cs : List Char) : Option (Option String × List Char) :=
  (readPieces cs).map fun (pieces, rest) ↦ ((joinPieces pieces).map String.ofList, rest)

/-! ## Values -/

mutual

/-- A value, after any blanks. -/
def readValue : Nat → List Char → Option (Json × List Char)
  | 0, _ => none
  | fuel + 1, cs =>
    match skipSpace cs with
    | '"' :: rest =>
      (readText rest).map fun (text?, rest) ↦ ((text?.map Json.string).getD .unreadable, rest)
    | '[' :: rest =>
      match skipSpace rest with
      | ']' :: rest => some (.array [], rest)
      | rest => (readItems fuel rest).map fun (items, rest) ↦ (.array items, rest)
    | '{' :: rest =>
      match skipSpace rest with
      | '}' :: rest => some (.object [], rest)
      | rest => (readFields fuel rest).map fun (fields?, rest) ↦
          ((fields?.map Json.object).getD .unreadable, rest)
    | 'n' :: rest => (afterWord ['u', 'l', 'l'] rest).map (Json.null, ·)
    | 't' :: rest => (afterWord ['r', 'u', 'e'] rest).map (Json.bool true, ·)
    | 'f' :: rest => (afterWord ['a', 'l', 's', 'e'] rest).map (Json.bool false, ·)
    | cs => readNumber cs

/-- One item of an array or more, up to the closing bracket. -/
def readItems : Nat → List Char → Option (List Json × List Char)
  | 0, _ => none
  | fuel + 1, cs => do
    let (item, rest) ← readValue fuel cs
    match skipSpace rest with
    | ']' :: rest => pure ([item], rest)
    | ',' :: rest =>
      let (items, rest) ← readItems fuel rest
      pure (item :: items, rest)
    | _ => none

/-- One field of an object or more, up to the closing brace; the fields are missing where a name
has no text. -/
def readFields : Nat → List Char → Option (Option (List (String × Json)) × List Char)
  | 0, _ => none
  | fuel + 1, cs =>
    match skipSpace cs with
    | '"' :: rest => do
      let (name?, rest) ← readText rest
      match skipSpace rest with
      | ':' :: rest =>
        let (value, rest) ← readValue fuel rest
        let field? := name?.map (·, value)
        match skipSpace rest with
        | '}' :: rest => pure (field?.map ([·]), rest)
        | ',' :: rest =>
          let (fields?, rest) ← readFields fuel rest
          pure (field?.bind fun field ↦ fields?.map (field :: ·), rest)
        | _ => none
      | _ => none
    | _ => none

end

/-- The value that a whole text writes. -/
def read (text : String) : Option Json := do
  let (value, rest) ← readValue (2 * text.length + 2) text.toList
  if (skipSpace rest).isEmpty then pure value else none

end ComponentCatalog.Json
