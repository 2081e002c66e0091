import ComponentCatalog.Text.Reader

/-!
# Places in a YAML text

Where a text goes on matters in YAML: a `Cursor` is the rest of a text with the line and the column
at which it starts.  The text has been cleaned before: all line breaks that mean the same are line
feeds, and there are no control characters.
-/

set_option autoImplicit false

namespace ComponentCatalog.Yaml

/-- The rest of a text, and where it starts. -/
structure Cursor where
  rest : List Char
  /-- The number of characters before it. -/
  index : Nat := 0
  line : Nat := 0
  column : Nat := 0

/-- The characters between the words of a line. -/
def isBlank (c : Char) : Bool := c = ' ' || c = '\t'

/-- The characters that end a line. -/
def isBreak (c : Char) : Bool := c = '\n' || c = '\u2028' || c = '\u2029'

/-- Whether a text starts with a blank, with a line break or not at all. -/
def startsBlank : List Char → Bool
  | [] => true
  | c :: _ => isBlank c || isBreak c

/-- Whether a text starts with a line break or not at all. -/
def startsBreak : List Char → Bool
  | [] => true
  | c :: _ => isBreak c

namespace Cursor

/-- The next character and the place after it. -/
def next? (s : Cursor) : Option (Char × Cursor) :=
  match s.rest with
  | [] => none
  | c :: rest =>
    if isBreak c then some (c, ⟨rest, s.index + 1, s.line + 1, 0⟩)
    else some (c, ⟨rest, s.index + 1, s.line, s.column + 1⟩)

instance : CharSource Cursor where
  rel a b := a.rest.length < b.rest.length
  wf := InvImage.wf (fun s : Cursor ↦ s.rest.length) Nat.lt_wfRel.wf
  next? := next?
  lt_of_next? := by
    intro s rest c h
    unfold next? at h
    split at h
    · cases h
    · rename_i heq
      split at h <;> (injection h with h; injection h with _ h; subst h; simp [heq])
  trans := Nat.lt_trans

/-- The characters that a text may hold. -/
def isPrintable (c : Char) : Bool :=
  let n := c.toNat
  n == 0x9 || n == 0xA || n == 0xD || (0x20 ≤ n && n ≤ 0x7E) || n == 0x85 ||
    (0xA0 ≤ n && n ≤ 0xFFFD) || 0x10000 ≤ n

/-- The text with line feeds for all line breaks that mean the same. -/
def withLineFeeds : List Char → List Char
  | '\r' :: '\n' :: rest => '\n' :: withLineFeeds rest
  | c :: rest =>
    (if c = '\r' ∨ c = '\u0085' then '\n' else c) :: withLineFeeds rest
  | [] => []

/-- The start of a text. -/
def ofText? (text : String) : Option Cursor :=
  let cs := text.toList
  if cs.all isPrintable then some { rest := withLineFeeds cs } else none

/-- Whether a mark of the byte order stands at the start of a line here. -/
def atByteOrderMark (s : Cursor) : Bool := s.column == 0 && s.rest.head? == some '\uFEFF'

/-- Whether a line that starts or ends a document starts here. -/
def atDocumentMark (s : Cursor) : Bool :=
  s.column == 0 && (['-', '-', '-'].isPrefixOf s.rest || ['.', '.', '.'].isPrefixOf s.rest) &&
    startsBlank (s.rest.drop 3)

end Cursor

end ComponentCatalog.Yaml
