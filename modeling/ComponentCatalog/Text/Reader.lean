/-!
# Readers

A reader takes characters off a source.  What a source is differs between formats: it can be a list
of characters, or more, such as characters with their positions.  All that counts here is that it
gives characters one after the other and that **taking a character leaves less**, in a sense that
every source says for itself (`CharSource`).

That a reader leaves no more than it was given is part of what it returns (`Taken`).  So readers can
be put together freely, and the loops go on as long as there are characters, without any bound that
has to be given.
-/

set_option autoImplicit false

namespace ComponentCatalog

/-- Gives characters.  Being less is the well-founded relation of the type. -/
class CharSource (σ : Type) extends WellFoundedRelation σ where
  /-- The next character and what is left after it. -/
  next? : σ → Option (Char × σ)
  /-- Taking a character leaves less. -/
  lt_of_next? : ∀ {s rest : σ} {c : Char}, next? s = some (c, rest) → rel rest s
  trans : ∀ {a b c : σ}, rel a b → rel b c → rel a c

namespace CharSource

variable {σ : Type} [CharSource σ]

/-- Whether `a` is less than `b`. -/
def Lt (a b : σ) : Prop := WellFoundedRelation.rel a b

/-- Whether `a` is no more than `b`. -/
def Le (a b : σ) : Prop := a = b ∨ Lt a b

theorem Le.refl (s : σ) : Le s s := .inl rfl

theorem Lt.le {a b : σ} (h : Lt a b) : Le a b := .inr h

theorem Le.trans_lt {a b c : σ} (hab : Le a b) (hbc : Lt b c) : Lt a c := by
  rcases hab with rfl | hab
  · exact hbc
  · exact CharSource.trans hab hbc

theorem Le.trans {a b c : σ} (hab : Le a b) (hbc : Le b c) : Le a c := by
  rcases hbc with rfl | hbc
  · exact hab
  · exact (hab.trans_lt hbc).le

end CharSource

open CharSource

/-- What a reader took off a source. -/
structure Taken {σ : Type} [CharSource σ] (α : Type) (s : σ) where
  value : α
  rest : σ
  le : Le rest s

/-- Takes characters off a source, or refuses it. -/
def Reader (σ : Type) [CharSource σ] (α : Type) : Type := (s : σ) → Option (Taken α s)

namespace Reader

variable {σ : Type} [CharSource σ]

instance : Monad (Reader σ) where
  pure a := fun s ↦ some ⟨a, s, .refl s⟩
  bind r f := fun s ↦
    match r s with
    | none => none
    | some ⟨a, s', le'⟩ =>
      match f a s' with
      | none => none
      | some ⟨b, rest, le⟩ => some ⟨b, rest, le.trans le'⟩

/-- Refuses every source. -/
def fail {α : Type} : Reader σ α := fun _ ↦ none

/-- Gives a value if there is one, and takes nothing. -/
def lift {α : Type} (a? : Option α) : Reader σ α := fun s ↦ a?.map fun a ↦ ⟨a, s, .refl s⟩

/-- Refuses the source unless a condition holds. -/
def require (condition : Bool) : Reader σ Unit := lift (if condition then some () else none)

/-- The source itself; takes nothing. -/
def source : Reader σ σ := fun s ↦ some ⟨s, s, .refl s⟩

/-- Takes the next character. -/
def next : Reader σ Char := fun s ↦
  match h : next? s with
  | none => none
  | some (c, rest) => some ⟨c, rest, Lt.le (lt_of_next? h)⟩

/-- The next character, if there is one; takes nothing. -/
def peek? : Reader σ (Option Char) := fun s ↦ some ⟨(next? s).map (·.1), s, .refl s⟩

/-- Takes a given character. -/
def char (c : Char) : Reader σ Unit := do
  require ((← next) == c)

/-- Takes a given word. -/
def word : List Char → Reader σ Unit
  | [] => pure ()
  | c :: cs => do
    char c
    word cs

/-- Takes the longest run of characters that satisfy `p`. -/
def takeWhile (p : Char → Bool) : Reader σ (List Char) := fun s ↦
  match h : next? s with
  | none => some ⟨[], s, .refl s⟩
  | some (c, s') =>
    if p c then
      match takeWhile p s' with
      | none => none
      | some ⟨cs, rest, le⟩ => some ⟨c :: cs, rest, le.trans (Lt.le (lt_of_next? h))⟩
    else some ⟨[], s, .refl s⟩
termination_by s => s
decreasing_by exact lt_of_next? h

/-- What a loop does after a step: it goes on with a state, or it is done. -/
inductive Step (τ α : Type) where
  | next (state : τ)
  | done (value : α)

/-- Takes a character, makes a step with it, and so on until a step is the last one.  A source that
ends before is refused. -/
def loop {τ α : Type} (step : τ → Char → Reader σ (Step τ α)) (state : τ) : Reader σ α := fun s ↦
  match h : next? s with
  | none => none
  | some (c, s') =>
    match step state c s' with
    | none => none
    | some ⟨.done a, rest, le⟩ => some ⟨a, rest, le.trans (Lt.le (lt_of_next? h))⟩
    | some ⟨.next state, s'', le⟩ =>
      match loop step state s'' with
      | none => none
      | some ⟨a, rest, le'⟩ => some ⟨a, rest, le'.trans (le.trans (Lt.le (lt_of_next? h)))⟩
termination_by s => s
decreasing_by exact le.trans_lt (lt_of_next? h)

/-- Takes a character and makes a step with it, and so on until `stop` finds what the loop gives. -/
def loopUntil {τ α : Type} (stop : τ → σ → Option α) (step : τ → Char → Reader σ τ) (state : τ) :
    Reader σ α := fun s ↦
  match stop state s with
  | some a => some ⟨a, s, .refl s⟩
  | none =>
    match h : next? s with
    | none => none
    | some (c, s') =>
      match step state c s' with
      | none => none
      | some ⟨state, s'', le⟩ =>
        match loopUntil stop step state s'' with
        | none => none
        | some ⟨a, rest, le'⟩ => some ⟨a, rest, le'.trans (le.trans (Lt.le (lt_of_next? h)))⟩
termination_by s => s
decreasing_by exact le.trans_lt (lt_of_next? h)

/-- What a loop gives at the end of its source. -/
def atEnd? {τ : Type} (state : τ) (s : σ) : Option τ :=
  match next? s with
  | none => some state
  | some _ => none

/-- Takes a character and makes a step with it as long as there are characters. -/
def loopToEnd {τ : Type} (step : τ → Char → Reader σ τ) (state : τ) : Reader σ τ :=
  loopUntil atEnd? step state

/-- What a reader makes of a source. -/
def read {α : Type} (r : Reader σ α) (s : σ) : Option α := (r s).map (·.value)

end Reader

end ComponentCatalog
