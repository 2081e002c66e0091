import ComponentCatalog.Text.Reader

/-!
# Sources of documents

The text of a document that is still to be read.  A reference to an entity is replaced by text that
is read before the document goes on, and that text may hold references in turn, so a source is more
than a list of characters: it holds the **replacement text** that is to be read first, and the
document's **own text** after it.

**Reading ends.**  Replacements may follow one another only `replacementLimit` times before
something of the document's own text is read.  So every character that is taken and every
replacement that is made leaves less to read (`Source.Lt`): own texts are compared first, then the
replacements that are still allowed, then the replacement texts.
-/

set_option autoImplicit false

namespace ComponentCatalog.Xml

/-- How often replacements may follow one another. -/
def replacementLimit : Nat := 10

/-- How long the replacement text may be when a replacement is added to it. -/
def replacementLengthLimit : Nat := 1000000

/-- The text of a document that is still to be read. -/
structure Source where
  /-- The text that replaces references that were read already. -/
  replacement : List Char := []
  /-- The document's own text after it. -/
  own : List Char
  /-- How many replacements were made since own text was read. -/
  replacements : Nat := 0

namespace Source

/-- What is left to read, to be compared in this order. -/
def measure (s : Source) : Nat × Nat × Nat :=
  (s.own.length, replacementLimit - s.replacements, s.replacement.length)

/-- Whether `a` leaves less to read than `b`. -/
def Lt (a b : Source) : Prop :=
  a.own.length < b.own.length ∨
    (a.own.length = b.own.length ∧
      (replacementLimit - a.replacements < replacementLimit - b.replacements ∨
        (replacementLimit - a.replacements = replacementLimit - b.replacements ∧
          a.replacement.length < b.replacement.length)))

theorem lt_iff_measure {a b : Source} : a.Lt b ↔
    Prod.Lex (· < ·) (Prod.Lex (· < ·) (· < ·)) a.measure b.measure := by
  simp [Prod.lex_def, Lt, measure]

/-- The next character and what is left after it. -/
def next? (s : Source) : Option (Char × Source) :=
  match s.replacement, s.own with
  | c :: rest, _ => some (c, { s with replacement := rest })
  | [], c :: rest => some (c, { replacement := [], own := rest, replacements := 0 })
  | [], [] => none

theorem lt_of_next? {s rest : Source} {c : Char} (h : s.next? = some (c, rest)) : rest.Lt s := by
  unfold next? at h
  split at h
  · rename_i heq
    injection h with h
    injection h with _ h
    subst h
    exact .inr ⟨rfl, .inr ⟨rfl, by simp [heq]⟩⟩
  · rename_i heq
    injection h with h
    injection h with _ h
    subst h
    exact .inl (by simp [heq])
  · cases h

instance : CharSource Source where
  rel := Lt
  wf := by
    have heq : Lt = InvImage (Prod.Lex (· < ·) (Prod.Lex (· < ·) (· < ·))) measure := by
      funext a b
      exact propext lt_iff_measure
    rw [heq]
    exact InvImage.wf _ (Prod.lex Nat.lt_wfRel (Prod.lex Nat.lt_wfRel Nat.lt_wfRel)).wf
  next? := next?
  lt_of_next? := lt_of_next?
  trans := by intro a b c hab hbc; unfold Lt at *; omega

/-- The source with a text in place of a reference that was just read; none if replacements have
followed one another too often, or too much replacement text is left. -/
def replace? (s : Source) (text : List Char) : Option Source :=
  if text.isEmpty then some s
  else if s.replacements < replacementLimit ∧
      s.replacement.length ≤ replacementLengthLimit then
    some { s with replacement := text ++ s.replacement, replacements := s.replacements + 1 }
  else none

/-- Making a replacement leaves no more. -/
theorem le_of_replace? {s rest : Source} {text : List Char} (h : s.replace? text = some rest) :
    CharSource.Le rest s := by
  unfold replace? at h
  split at h
  · injection h with h
    exact .inl h.symm
  · split at h
    · rename_i hlimit
      injection h with h
      subst h
      exact .inr (.inr ⟨rfl, .inl (by simp only; omega)⟩)
    · cases h

/-- Puts a text in place of a reference. -/
def replace (text : List Char) : Reader Source Unit := fun s ↦
  match h : s.replace? text with
  | none => none
  | some rest => some ⟨(), rest, le_of_replace? h⟩

end Source

end ComponentCatalog.Xml
