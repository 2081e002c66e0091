import ComponentCatalog.NameMap
import ComponentCatalog.Text.Split

/-!
# Wildcard patterns

In a pattern a star stands for any run of characters on one line, and every other character stands
for itself.  A pattern is matched against a whole text.

A pattern is compiled before it is matched, and **the compiled patterns are kept** in a table for
the next time.  A pattern without a star is compared directly and never compiled.

**Matching reads the text once.**  What is left of a compiled pattern after some characters of the
text is one of its suffixes, and `acceptsAny` follows all of the suffixes that are possible at a
time, so no text makes it go back.
-/

set_option autoImplicit false

namespace ComponentCatalog.Wildcard

/-! ## Compiled patterns -/

/-- What a compiled pattern asks for next. -/
inductive Symbol where
  /-- The character itself, whatever it is. -/
  | character (c : Char)
  /-- Any run of characters on one line. -/
  | run
deriving DecidableEq

/-- A compiled pattern. -/
abbrev Compiled := List Symbol

/-- Compiles a pattern: its pieces between the stars, with a run between each two of them. -/
def compile (pattern : String) : Compiled :=
  [.run].intercalate ((pattern.toList.splitOn '*').map (·.map .character))

/-! ## Matching -/

/-- What can be left of a compiled pattern once it has taken the character `c`.  A run may take it
and go on, unless it ends the line, or may be done already. -/
def after (c : Char) : Compiled → List Compiled
  | [] => []
  | .run :: rest => (if c = '\n' then [] else [.run :: rest]) ++ after c rest
  | .character d :: rest => if c = d then [rest] else []

/-- Whether one of the compiled patterns takes the whole text. -/
def acceptsAny (patterns : List Compiled) : List Char → Bool
  | [] => patterns.any (·.all (· == .run))
  | c :: text => acceptsAny (patterns.flatMap (after c)).eraseDups text

/-- Whether the compiled pattern takes the whole text. -/
def Compiled.accepts (compiled : Compiled) (text : String) : Bool :=
  acceptsAny [compiled] text.toList

/-- Whether the pattern takes the whole text. -/
def accepts (pattern text : String) : Bool := (compile pattern).accepts text

/-- Whether a text matches a pattern.  A pattern without a star is compared directly. -/
def isMatch (pattern text : String) : Bool :=
  if pattern.toList.contains '*' then accepts pattern text else pattern == text

/-! ## Keeping compiled patterns -/

/-- The patterns that have been compiled. -/
abbrev Table := NameMap Compiled

/-- Whether a text matches a pattern, and the table from then on. -/
def Table.isMatch (table : Table) (pattern text : String) : Bool × Table :=
  if pattern.toList.contains '*' then
    match table.get? pattern with
    | some compiled => (compiled.accepts text, table)
    | none =>
      let compiled := compile pattern
      (compiled.accepts text, table.insert pattern compiled)
  else (pattern == text, table)

end ComponentCatalog.Wildcard
