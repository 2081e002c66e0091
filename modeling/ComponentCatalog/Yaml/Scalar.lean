import ComponentCatalog.Yaml.Cursor

/-!
# Reading scalars

The three ways to write a scalar: plain, in quotes, and as a block of lines.

A plain or quoted scalar can go over several lines.  A **gap** is what stands between two of its
words.  A gap on one line stays as it is; of a gap with line breaks the blanks are dropped, a single
break becomes a space, and of several breaks the first is dropped.
-/

set_option autoImplicit false

namespace ComponentCatalog.Yaml

/-! ## Gaps -/

/-- What stands between two words of a scalar. -/
structure Gap where
  /-- The blanks of a gap on one line. -/
  blanks : List Char := []
  /-- The line breaks. -/
  breaks : List Char := []
  /-- Whether an escaped line break came first. -/
  escaped : Bool := false

namespace Gap

/-- Whether the gap goes over a line break. -/
def isBroken (g : Gap) : Bool := g.escaped || !g.breaks.isEmpty

/-- Whether there is no gap. -/
def isEmpty (g : Gap) : Bool := g.blanks.isEmpty && !g.isBroken

/-- The gap with one more character. -/
def add (g : Gap) (c : Char) : Gap :=
  if isBreak c then { g with blanks := [], breaks := g.breaks ++ [c] }
  else if g.isBroken then g
  else { g with blanks := g.blanks ++ [c] }

/-- What the gap stands for. -/
def text (g : Gap) : List Char :=
  if g.escaped then g.breaks
  else
    match g.breaks with
    | [] => g.blanks
    | ['\n'] => [' ']
    | '\n' :: more => more
    | breaks => breaks

end Gap

/-- Takes the rest of a gap.  After a line break, tabs may stand only from column `tabsFrom` on. -/
def takeGap (tabsFrom : Nat) (g : Gap) : Reader Cursor Gap :=
  Reader.loopUntil
    (fun g s ↦
      if (s.rest.head?.map fun c ↦ isBlank c || isBreak c).getD false then none else some g)
    (fun g c ↦ do
      let after ← Reader.source
      Reader.require !(g.isBroken && c == '\t' && after.column ≤ tabsFrom)
      pure (g.add c)) g

/-! ## Plain scalars -/

/-- The characters that have a meaning of their own in collections on one line. -/
def isFlowMark (c : Char) : Bool := [',', '[', ']', '{', '}'].contains c

/-- Whether a word of a plain scalar is over. -/
def endsWord (inFlow : Bool) : List Char → Bool
  | [] => true
  | c :: rest =>
    isBlank c || isBreak c || (c == ':' && startsBlank rest) || (inFlow && isFlowMark c)

/-- Refuses a colon right before a mark of a collection on one line. -/
def requireNoLooseColon (inFlow : Bool) (c : Char) : Reader Cursor Unit := do
  let next? ← Reader.peek?
  Reader.require !(inFlow && c == ':' && (next?.map fun d ↦ d == '?' || isFlowMark d).getD false)

/-- Takes the rest of a word of a plain scalar. -/
def takeWord (inFlow : Bool) (first : Char) : Reader Cursor (List Char) := do
  requireNoLooseColon inFlow first
  let reversed ← Reader.loopUntil
    (fun reversed s ↦ if endsWord inFlow s.rest then some reversed else none)
    (fun reversed c ↦ do
      requireNoLooseColon inFlow c
      pure (c :: reversed)) [first]
  pure reversed.reverse

/-- The state of reading a plain scalar: its text so far in reverse, and the gap after it. -/
structure PlainState where
  reversed : List Char := []
  gap : Gap := {}

/-- Whether a plain scalar, started before, is over at a place. -/
def PlainState.isOver (inFlow : Bool) (indent : Nat) (p : PlainState) (s : Cursor) : Bool :=
  !p.reversed.isEmpty &&
    (p.gap.isEmpty || s.atDocumentMark || s.rest.head? == some '#' ||
      (!inFlow && s.column < indent) || endsWord inFlow s.rest)

/-- Reads a plain scalar, whose further lines start at column `indent` or after it, and says whether
it ended after a line break. -/
def readPlain (inFlow : Bool) (indent : Nat) (first : Char) : Reader Cursor (String × Bool) := do
  let step (p : PlainState) (c : Char) : Reader Cursor PlainState := do
    let word ← takeWord inFlow c
    let gap ← takeGap indent {}
    pure { reversed := word.reverse ++ (p.gap.text.reverse ++ p.reversed), gap }
  let start ← step {} first
  Reader.loopUntil
    (fun p s ↦
      if p.isOver inFlow indent s then
        some (String.ofList p.reversed.reverse, p.gap.isBroken)
      else none)
    step start

/-! ## Quoted scalars -/

/-- The value of a hexadecimal digit. -/
def hexDigit? (c : Char) : Option Nat :=
  if c.isDigit then some (c.toNat - 48)
  else if 'a' ≤ c ∧ c ≤ 'f' then some (c.toNat - 87)
  else if 'A' ≤ c ∧ c ≤ 'F' then some (c.toNat - 55)
  else none

/-- Reads a number of `count` hexadecimal digits. -/
def readHex : Nat → Nat → Reader Cursor Nat
  | 0, n => pure n
  | count + 1, n => do
    let digit ← Reader.lift (hexDigit? (← Reader.next))
    readHex count (n * 16 + digit)

/-- The characters behind escapes of one letter. -/
def namedEscapes : List (Char × Char) := [
  ('0', '\x00'), ('a', '\x07'), ('b', '\x08'), ('t', '\t'), ('\t', '\t'), ('n', '\n'),
  ('v', '\x0B'), ('f', '\x0C'), ('r', '\r'), ('e', '\x1B'), (' ', ' '), ('"', '"'), ('/', '/'),
  ('\\', '\\'), ('N', '\u0085'), ('_', '\u00A0'), ('L', '\u2028'), ('P', '\u2029')]

/-- Reads an escape after its backslash. -/
def readEscape : Reader Cursor Char := do
  let c ← Reader.next
  let coded (digits : Nat) : Reader Cursor Char := do
    let n ← readHex digits 0
    if h : n.isValidChar then pure (Char.ofNatAux n h) else Reader.fail
  if c = 'x' then coded 2
  else if c = 'u' then coded 4
  else if c = 'U' then coded 8
  else Reader.lift (namedEscapes.lookup c)

/-- Takes the rest of a gap in a quoted scalar.  No line that starts or ends a document may stand in
a scalar. -/
def takeQuotedGap (g : Gap) : Reader Cursor (List Char) := do
  let gap ← takeGap 0 g
  Reader.require !(← Reader.source).atDocumentMark
  pure gap.text

/-- Reads a scalar in single quotes after the first one.  A quote in it is written twice. -/
def readSingleQuoted : Reader Cursor String := do
  let reversed ← Reader.loop (fun reversed c ↦ do
    if c = '\'' then
      if (← Reader.peek?) = some '\'' then
        let _ ← Reader.next
        pure (.next ('\'' :: reversed))
      else pure (.done reversed)
    else if isBlank c || isBreak c then
      pure (.next ((← takeQuotedGap (Gap.add {} c)).reverse ++ reversed))
    else pure (.next (c :: reversed))) []
  pure (String.ofList reversed.reverse)

/-- Reads a scalar in double quotes after the first one. -/
def readDoubleQuoted : Reader Cursor String := do
  let reversed ← Reader.loop (fun reversed c ↦ do
    if c = '"' then pure (.done reversed)
    else if c = '\\' then
      if ((← Reader.peek?).map isBreak).getD false then
        let _ ← Reader.next
        pure (.next ((← takeQuotedGap { escaped := true }).reverse ++ reversed))
      else pure (.next ((← readEscape) :: reversed))
    else if isBlank c || isBreak c then
      pure (.next ((← takeQuotedGap (Gap.add {} c)).reverse ++ reversed))
    else pure (.next (c :: reversed))) []
  pure (String.ofList reversed.reverse)

/-! ## Blocks of lines -/

/-- What happens to the line breaks at the end of a block. -/
inductive Chomping where
  /-- The first is kept. -/
  | clip
  | keep
  | strip
deriving DecidableEq

/-- The head of a block: what happens to its end, and by how much it is indented, if it says so. -/
structure BlockHead where
  chomping : Chomping := .clip
  increment? : Option Nat := none

/-- Takes the sign for the end of a block. -/
def takeChomping : Reader Cursor (Option Chomping) := do
  match ← Reader.peek? with
  | some '+' =>
    let _ ← Reader.next
    pure (some .keep)
  | some '-' =>
    let _ ← Reader.next
    pure (some .strip)
  | _ => pure none

/-- Takes the digit for the indentation of a block, which is not zero. -/
def takeIncrement : Reader Cursor (Option Nat) := do
  match ← Reader.peek? with
  | some c =>
    if c.isDigit then
      let _ ← Reader.next
      Reader.require (c != '0')
      pure (some (c.toNat - 48))
    else pure none
  | none => pure none

/-- Takes what may stand at the end of a line: blanks and a comment. -/
def takeLineEnd : Reader Cursor Unit := do
  let _ ← Reader.takeWhile isBlank
  if (← Reader.peek?) = some '#' then
    let _ ← Reader.takeWhile (!isBreak ·)
  Reader.require (startsBreak (← Reader.source).rest)

/-- Takes a line break if there is one. -/
def takeBreak : Reader Cursor (List Char) := do
  match ← Reader.peek? with
  | some c =>
    if isBreak c then
      let _ ← Reader.next
      pure [c]
    else pure []
  | none => pure []

/-- Reads the head of a block, to the end of its line. -/
def readBlockHead : Reader Cursor BlockHead := do
  let head ← match ← takeChomping with
    | some chomping =>
      let increment? ← takeIncrement
      pure { chomping, increment? }
    | none =>
      let increment? ← takeIncrement
      let chomping? ← if increment?.isSome then takeChomping else pure none
      pure { chomping := chomping?.getD .clip, increment? }
  takeLineEnd
  let _ ← takeBreak
  pure head

/-- The empty lines between two lines of a block. -/
structure EmptyLines where
  breaks : List Char := []
  /-- The rightmost column that was reached. -/
  column : Nat := 0

/-- Takes empty lines and then the indentation of the next line: up to column `indent?`, or all of
it if the indentation is not known.  A tab must not stand in the indentation. -/
def takeEmptyLines (indent? : Option Nat) : Reader Cursor EmptyLines := do
  let inIndentation (s : Cursor) : Bool := (indent?.map fun i ↦ decide (s.column < i)).getD true
  let lines ← Reader.loopUntil
    (fun lines s ↦
      match s.rest with
      | ' ' :: _ => if inIndentation s then none else some lines
      | c :: _ => if isBreak c then none else some lines
      | [] => some lines)
    (fun (lines : EmptyLines) c ↦ do
      if isBreak c then pure { lines with breaks := lines.breaks ++ [c] }
      else pure { lines with column := max lines.column (← Reader.source).column }) {}
  let s ← Reader.source
  Reader.require !(inIndentation s && s.rest.head? == some '\t')
  pure lines

/-- The state of reading a block. -/
structure BlockState where
  reversed : List Char := []
  /-- The break after the last line. -/
  lastBreak : List Char := []
  /-- The breaks of the empty lines after it. -/
  emptyLines : List Char := []
  /-- Whether the last line starts with a blank. -/
  indented : Bool := false

/-- What stands between the last line of a block and a next line that starts with `c`.  In a folded
block a line break between two lines that are not indented further becomes a space. -/
def BlockState.gap (folded : Bool) (b : BlockState) (c : Char) : List Char :=
  if folded && b.lastBreak == ['\n'] && !b.indented && !isBlank c then
    if b.emptyLines.isEmpty then [' '] else b.emptyLines
  else b.lastBreak ++ b.emptyLines

/-- The breaks at the end of a block that count. -/
def BlockState.ending (b : BlockState) : Chomping → List Char
  | .strip => []
  | .clip => b.lastBreak
  | .keep => b.lastBreak ++ b.emptyLines

/-- Reads a block after its mark.  `indent` is the least column at which its lines can start. -/
def readBlock (folded : Bool) (indent : Nat) : Reader Cursor String := do
  let head ← readBlockHead
  let indent? := head.increment?.map (indent - 1 + ·)
  let first ← takeEmptyLines indent?
  let column := indent?.getD (max (max first.column indent) 1)
  let b ← Reader.loopUntil
    (fun b s ↦ if s.column ≠ column ∨ s.rest.isEmpty then some b else none)
    (fun (b : BlockState) c ↦ do
      let line ← Reader.takeWhile (!isBreak ·)
      let lastBreak ← takeBreak
      let lines ← takeEmptyLines (some column)
      pure {
        reversed := line.reverse ++ (c :: ((b.gap folded c).reverse ++ b.reversed))
        lastBreak, emptyLines := lines.breaks, indented := isBlank c })
    { emptyLines := first.breaks }
  pure (String.ofList (b.reversed.reverse ++ b.ending head.chomping))

end ComponentCatalog.Yaml
