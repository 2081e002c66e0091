import ComponentCatalog.Xml.Document

/-!
# Documents read as they are written

While a document is read, a reference may put text in front of what is still to come.  A document
in which none does is read character by character, so **reading it is a fold over its text**
(`read_of_readVerbatim?`).  The fold computes where the loop over a source, which goes on by
well-founded recursion, does not.
-/

set_option autoImplicit false

namespace ComponentCatalog

namespace Reader

section Leaves

variable {σ : Type} [CharSource σ] {α β γ : Type}

/-- The reader gives `a` and takes nothing. -/
def Leaves (r : Reader σ α) (a : α) : Prop := ∀ s, r s = some ⟨a, s, .refl s⟩

theorem leaves_pure (a : α) : Leaves (pure a : Reader σ α) a := fun _ ↦ rfl

theorem leaves_lift {a? : Option α} {a : α} (h : a? = some a) :
    Leaves (lift a? : Reader σ α) a := by
  intro s
  rw [h]
  rfl

theorem Leaves.bind {r : Reader σ α} {f : α → Reader σ β} {a : α} {b : β} (hr : r.Leaves a)
    (hf : (f a).Leaves b) : (r >>= f).Leaves b := by
  intro s
  simp only [Bind.bind, hr s, hf s]

theorem leaves_foldlM {step : α → γ → Reader σ α} {step? : α → γ → Option α}
    (h : ∀ {a c b}, step? a c = some b → (step a c).Leaves b) (l : List γ) {a b : α}
    (hb : l.foldlM step? a = some b) : (l.foldlM step a).Leaves b := by
  induction l generalizing a with
  | nil =>
    obtain rfl := Option.some.inj hb
    exact leaves_pure a
  | cons c l ih =>
    rw [List.foldlM_cons] at hb ⊢
    obtain ⟨a', ha', hb⟩ := Option.bind_eq_some_iff.mp hb
    exact (h ha').bind (ih hb)

end Leaves

section Loop

variable {σ : Type} [CharSource σ] {τ : Type} {step : τ → Char → Reader σ τ} {state : τ} {s : σ}

theorem read_loopToEnd_of_next?_eq_none (h : CharSource.next? s = none) :
    (loopToEnd step state).read s = some state := by
  have hstop : atEnd? state s = some state := by rw [atEnd?, h]
  rw [read, loopToEnd, loopUntil.eq_def, hstop]
  rfl

theorem read_loopToEnd_of_next?_eq_some {c : Char} {s' : σ} {t : Taken τ s'}
    (h : CharSource.next? s = some (c, s')) (ht : step state c s' = some t) :
    (loopToEnd step state).read s = (loopToEnd step t.value).read t.rest := by
  have hstop : atEnd? state s = none := by rw [atEnd?, h]
  obtain ⟨state', rest, le⟩ := t
  rw [read, loopToEnd, loopUntil.eq_def, hstop]
  dsimp only
  split
  · rename_i hnone
    cases hnone.symm.trans h
  · rename_i c' s'' hsome
    obtain ⟨rfl, rfl⟩ := Prod.mk.inj (Option.some.inj (hsome.symm.trans h))
    simp only [ht]
    rw [read, loopToEnd]
    cases loopUntil atEnd? step state' rest with
    | none => rfl
    | some t => rfl

end Loop

end Reader

namespace Xml

/-! ## Folding over a text -/

/-- The bytes of a text of ASCII characters. -/
def asciiBytes (text : String) : Bytes := text.toList.map fun c ↦ c.toNat.toUInt8

/-- Adds a token; none if a text comes with it. -/
def addToken? (o : Outline) (t : Token) : Option Outline := do
  let (o, text) ← o.add? t
  if text.isEmpty then pure o else none

/-- Adds the tokens that a character completes; none if a text comes with one of them. -/
def addCharacter? (progress : Tokenizer × Outline) (c : Char) : Option (Tokenizer × Outline) := do
  let (tokens, tokenizer) ← progress.1.step c
  pure (tokenizer, ← tokens.foldlM addToken? progress.2)

/-- The root element of the document that bytes write, if it is read as it is written. -/
def readVerbatim? (bytes : Bytes) : Option Element := do
  let (declaration, text) ← decodeDocument bytes
  let (tokenizer, outline) ← text.foldlM addCharacter? ({}, { version := declaration.version })
  if tokenizer.canEnd then outline.finish? else none

/-! ## Folding is reading -/

theorem Source.leaves_replace_nil : (Source.replace []).Leaves () := fun _ ↦ rfl

theorem addToken_leaves {o o' : Outline} {t : Token} (h : addToken? o t = some o') :
    (addToken o t).Leaves o' := by
  obtain ⟨⟨o'', text⟩, hadd, h⟩ := Option.bind_eq_some_iff.mp h
  cases text with
  | nil =>
    obtain rfl := Option.some.inj h
    exact (Reader.leaves_lift hadd).bind
      (Source.leaves_replace_nil.bind (Reader.leaves_pure o''))
  | cons c text => cases h

theorem addCharacter_leaves {p p' : Tokenizer × Outline} {c : Char}
    (h : addCharacter? p c = some p') : (addCharacter p c).Leaves p' := by
  obtain ⟨⟨tokens, tokenizer⟩, hstep, h⟩ := Option.bind_eq_some_iff.mp h
  obtain ⟨o, hfold, h⟩ := Option.bind_eq_some_iff.mp h
  obtain rfl := Option.some.inj h
  exact (Reader.leaves_lift hstep).bind
    ((Reader.leaves_foldlM addToken_leaves tokens hfold).bind (Reader.leaves_pure _))

/-- A loop whose steps take nothing goes through the text of a document one character after the
other. -/
theorem read_loopToEnd_of_foldlM {τ : Type} {step : τ → Char → Reader Source τ}
    {step? : τ → Char → Option τ} (h : ∀ {a c b}, step? a c = some b → (step a c).Leaves b)
    (text : List Char) {a b : τ} (hb : text.foldlM step? a = some b) :
    (Reader.loopToEnd step a).read { own := text } = some b := by
  induction text generalizing a with
  | nil =>
    obtain rfl := Option.some.inj hb
    exact Reader.read_loopToEnd_of_next?_eq_none rfl
  | cons c text ih =>
    rw [List.foldlM_cons] at hb
    obtain ⟨a', ha', hb⟩ := Option.bind_eq_some_iff.mp hb
    rw [Reader.read_loopToEnd_of_next?_eq_some rfl (h ha' { own := text })]
    exact ih hb

theorem read_of_readVerbatim? {bytes : Bytes} {root : Element}
    (h : readVerbatim? bytes = some root) : read bytes = some root := by
  obtain ⟨⟨declaration, text⟩, hdecode, h⟩ := Option.bind_eq_some_iff.mp h
  obtain ⟨⟨tokenizer, outline⟩, hfold, h⟩ := Option.bind_eq_some_iff.mp h
  rw [read, hdecode]
  show (Reader.read _ _ >>= _) = _
  rw [read_loopToEnd_of_foldlM addCharacter_leaves text hfold]
  exact h

end Xml

end ComponentCatalog
