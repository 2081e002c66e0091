import ComponentCatalog.Proofs.Outcome
import ComponentCatalog.Xml.Document

/-!
# Names in documents

**No name in a document has a slash in it** (`plain_of_read`).  So the path of an element says what
the names of the elements around it are.

Names come into an element from the names in tags, which are read character by character, and none
of those characters is a slash.  The invariant is carried by everything that holds a name while a
document is read: the tag that is being read, the open elements, and their children.
-/

set_option autoImplicit false

namespace ComponentCatalog

/-- The name has no slash in it. -/
def Plain (name : String) : Prop := '/' ∉ name.toList

instance : DecidablePred Plain := fun name ↦ inferInstanceAs (Decidable ('/' ∉ name.toList))

/-! ## What steps and readers give -/

section Gives

variable {α β : Type} {P : α → Prop} {Q : β → Prop}

/-- If there is a value, it satisfies `P`. -/
def Gives (P : α → Prop) (a? : Option α) : Prop := ∀ a, a? = some a → P a

theorem gives_none : Gives P none := nofun

theorem gives_some {a : α} (h : P a) : Gives P (some a) := fun _ ha ↦ Option.some.inj ha ▸ h

/-- If both steps give a value, the second one has been given one that satisfies `P`. -/
theorem Gives.bind {a? : Option α} {f : α → Option β} (ha : Gives P a?)
    (hf : ∀ a, P a → Gives Q (f a)) : Gives Q (a? >>= f) := by
  intro b hb
  obtain ⟨a, ha', hb⟩ := Option.bind_eq_some_iff.mp hb
  exact hf a (ha a ha') b hb

theorem Gives.map {a? : Option α} {f : α → β} (ha : Gives P a?) (hf : ∀ a, P a → Q (f a)) :
    Gives Q (a?.map f) := by
  intro b hb
  obtain ⟨a, ha', rfl⟩ := Option.map_eq_some_iff.mp hb
  exact hf a (ha a ha')

theorem gives_true (a? : Option α) : Gives (fun _ ↦ True) a? := fun _ _ ↦ trivial

end Gives

namespace Reader

variable {σ : Type} [CharSource σ] {α β γ : Type} {P : α → Prop} {Q : β → Prop}

/-- Whatever the reader takes off a source, it gives something that satisfies `P`. -/
def Yields (P : α → Prop) (r : Reader σ α) : Prop := ∀ s t, r s = some t → P t.value

theorem yields_pure {a : α} (h : P a) : Yields P (pure a : Reader σ α) := by
  intro s t ht
  obtain rfl := Option.some.inj ht
  exact h

theorem yields_lift {a? : Option α} (h : Gives P a?) : Yields P (lift a? : Reader σ α) := by
  intro s t ht
  obtain ⟨a, ha, rfl⟩ := Option.map_eq_some_iff.mp ht
  exact h a ha

/-- The second reader goes on with what the first one gives, wherever in the source that is. -/
theorem Yields.bind {r : Reader σ α} {f : α → Reader σ β} (hr : r.Yields P)
    (hf : ∀ a, P a → (f a).Yields Q) : (r >>= f).Yields Q := by
  intro s t ht
  simp only [Bind.bind] at ht
  split at ht
  · cases ht
  · rename_i a s' le' hs
    split at ht
    · cases ht
    · rename_i b rest le hs'
      obtain rfl := Option.some.inj ht
      exact hf a (hr s _ hs) s' _ hs'

/-- Readers whose values hold no names are passed over by this. -/
theorem yields_true (r : Reader σ α) : r.Yields fun _ ↦ True := fun _ _ _ ↦ trivial

theorem Yields.foldlM {step : α → γ → Reader σ α} (h : ∀ a c, P a → (step a c).Yields P)
    (l : List γ) {a : α} (ha : P a) : (l.foldlM step a).Yields P := by
  induction l generalizing a with
  | nil => exact yields_pure ha
  | cons c l ih =>
    rw [List.foldlM_cons]
    exact (h a c ha).bind fun b hb ↦ ih hb

/-- An invariant of the step is one of the loop: the loop stops at the end of the source and gives
the last state. -/
theorem Yields.loopToEnd {step : α → Char → Reader σ α} (h : ∀ a c, P a → (step a c).Yields P)
    {a : α} (ha : P a) : (loopToEnd step a).Yields P := by
  intro s
  rw [Reader.loopToEnd]
  fun_induction loopUntil atEnd? step a s with
  | case1 state s b hstop =>
    intro t ht
    obtain rfl := Option.some.inj ht
    rw [atEnd?] at hstop
    split at hstop
    · exact Option.some.inj hstop ▸ ha
    · cases hstop
  | case2 => nofun
  | case3 => nofun
  | case4 => nofun
  | case5 state s _ c rest _ b rest' le hstep b' rest'' le' hloop ih =>
    intro t ht
    obtain rfl := Option.some.inj ht
    exact ih (h state c ha rest _ hstep) _ hloop

end Reader

namespace Xml

/-! ## Names -/

/-- A slash starts no name. -/
theorem ne_slash_of_isNameStart {c : Char} (h : isNameStart c) : c ≠ '/' := by
  rintro rfl
  exact absurd h (by decide)

/-- A slash does not stand in a name either, which is why it ends the name in an empty tag. -/
theorem ne_slash_of_isNameChar {c : Char} (h : isNameChar c) : c ≠ '/' := by
  rintro rfl
  exact absurd h (by decide)

/-- The part after the colon has no other characters than the whole name. -/
theorem QualifiedName.ofChars?_plain {cs : List Char} (hcs : '/' ∉ cs) :
    Gives (fun q ↦ Plain q.name) (ofChars? cs) := by
  rw [ofChars?]
  split
  · split
    · exact gives_none
    · exact gives_some (by simpa [Plain] using hcs)
  · rename_i name hdrop
    have hname : name ⊆ cs := fun c hc ↦
      (List.dropWhile_sublist _).subset (hdrop ▸ List.mem_cons_of_mem _ hc)
    dsimp only
    split
    · exact gives_none
    · exact gives_some (by simpa [Plain] using fun hslash ↦ hcs (hname hslash))

namespace NameDraft

variable {n : NameDraft}

/-- The name as far as it was read has no slash in it. -/
def Plain (n : NameDraft) : Prop := '/' ∉ n.reversed

/-- Only the note on the colon is forgotten. -/
theorem reversed_refresh (n : NameDraft) : n.refresh.reversed = n.reversed := by
  rw [refresh]
  split
  · rfl
  · split
    · rfl
    · rfl
  · rfl

/-- What a name takes in is a colon or a character of names. -/
theorem Plain.add? (hn : n.Plain) (c : Char) : Gives Plain (n.add? c) := by
  have hadd : ∀ colon, c ≠ '/' → Plain ⟨c :: n.reversed, colon⟩ := fun _ hc ↦
    List.not_mem_cons_of_ne_of_not_mem hc.symm hn
  rw [NameDraft.add?, reversed_refresh]
  split
  · rename_i hcolon
    split
    · exact gives_none
    · exact gives_some (hadd _ (by rw [hcolon]; decide))
  · split
    · split
      · rename_i hstart
        exact gives_some (hadd _ (ne_slash_of_isNameStart hstart))
      · exact gives_none
    · split
      · rename_i hname
        exact gives_some (hadd _ (ne_slash_of_isNameChar hname))
      · exact gives_none

theorem Plain.finish? (hn : n.Plain) : Gives (fun q ↦ ComponentCatalog.Plain q.name) n.finish? :=
  QualifiedName.ofChars?_plain fun hslash ↦ hn (List.mem_reverse.mp hslash)

end NameDraft

/-! ## Tags -/

namespace TagState

/-- The name of the element has no slash in it, as far as it was read. -/
def Plain : TagState → Prop
  | .name n => n.Plain
  | .between tag | .key tag _ | .afterKey tag _ | .beforeValue tag _ | .afterValue tag =>
    ComponentCatalog.Plain tag.name.name
  | .value v | .reference v _ => ComponentCatalog.Plain v.tag.name.name

/-- The name of the element has no slash in it, as far as it was read. -/
def Next.Plain : Next → Prop
  | .go s => s.Plain
  | .done tag => ComponentCatalog.Plain tag.name.name

section Steps

variable {tag : TagDraft} {n : NameDraft} {v : ValueDraft} (t : Token)

/-- After a name or a value the tag ends or goes on, with the same element. -/
theorem endOrBlank?_plain (htag : ComponentCatalog.Plain tag.name.name) :
    Gives Next.Plain (endOrBlank? tag t) := by
  rw [endOrBlank?.eq_def]
  split
  · exact gives_some htag
  · exact gives_some htag
  · split
    · exact gives_some htag
    · exact gives_none
  · exact gives_none

/-- The name is complete at the first token that it does not take in. -/
theorem inName?_plain (hn : n.Plain) : Gives Next.Plain (inName? n t) := by
  have hfinish : ∀ t, Gives Next.Plain
      (do endOrBlank? { name := ← n.finish?, colon := n.refresh.colon } t) :=
    fun t ↦ hn.finish?.bind fun _ hname ↦ endOrBlank?_plain t hname
  rw [inName?.eq_def]
  split
  · split
    · exact hfinish _
    · exact (hn.add? _).map fun _ hm ↦ hm
  · exact hfinish _

theorem inBetween?_plain (htag : ComponentCatalog.Plain tag.name.name) :
    Gives Next.Plain (inBetween? tag t) := by
  rw [inBetween?.eq_def]
  split
  · split
    · exact gives_some htag
    · exact endOrBlank?_plain _ htag
  · exact endOrBlank?_plain _ htag

/-- From here on the name of the element is there, and no name of an attribute gets into it. -/
theorem inKey?_plain (n : NameDraft) (htag : ComponentCatalog.Plain tag.name.name) :
    Gives Plain (inKey? tag n t) := by
  rw [inKey?.eq_def]
  dsimp only
  split
  · exact (gives_true _).bind fun _ _ ↦ gives_some htag
  · split
    · exact (gives_true _).bind fun _ _ ↦ gives_some htag
    · exact (gives_true _).map fun _ _ ↦ htag
  · exact gives_none

theorem inValue?_plain (version : Version) (htag : ComponentCatalog.Plain v.tag.name.name) :
    Gives Plain (inValue? version v t) := by
  rw [inValue?.eq_def]
  split
  · exact gives_some htag
  · split
    · exact gives_some htag
    · exact gives_none
    · exact gives_none
    · split
      · exact gives_some htag
      · exact gives_none
    · exact gives_some htag

theorem inReference?_plain (version : Version) (entities : Entities) (reversed : List Char)
    (htag : ComponentCatalog.Plain v.tag.name.name) :
    Gives Plain (inReference? version entities v reversed t) := by
  cases t with
  | char c => exact (gives_true _).map fun _ _ ↦ htag
  | semicolon =>
    refine (gives_true _).bind fun referent _ ↦ ?_
    cases referent with
    | character c => exact gives_some htag
    | entity text => exact gives_some htag
  | _ => exact gives_none

/-- **One token** of a tag brings no slash into the name of its element. -/
theorem step?_plain (version : Version) (entities : Entities) {s : TagState} (hs : s.Plain) :
    Gives Next.Plain (s.step? version entities t) := by
  have hgo : ∀ {s? : Option TagState}, Gives Plain s? → Gives Next.Plain (s?.map .go) :=
    fun h ↦ h.map fun _ hs ↦ hs
  have hblank : ∀ {c : Char} {s : TagState}, s.Plain →
      Gives Next.Plain (if isSpace c then some (.go s) else none) := by
    intro c s hs
    split
    · exact gives_some hs
    · exact gives_none
  rw [step?.eq_def]
  split
  · exact inName?_plain t hs
  · exact inBetween?_plain t hs
  · exact hgo (inKey?_plain t _ hs)
  · split
    · exact gives_some hs
    · exact hblank hs
    · exact gives_none
  · split
    · exact gives_some hs
    · exact hblank hs
    · exact gives_none
  · exact hgo (inValue?_plain t version hs)
  · exact hgo (inReference?_plain t version entities _ hs)
  · exact endOrBlank?_plain t hs

end Steps

end TagState

/-! ## Elements -/

namespace Element

mutual

/-- The names of an element and of all elements in it. -/
def names : Element → List String
  | ⟨name, _, _, children⟩ => name :: childNames children

/-- The names of the elements in a list and of all elements in them. -/
def childNames : List Element → List String
  | [] => []
  | child :: rest => child.names ++ childNames rest

end

theorem names_eq (e : Element) : e.names = e.name :: childNames e.children := by
  obtain ⟨name, attributes, text, children⟩ := e
  rw [names]

/-- The mutual recursion is one over the children. -/
theorem childNames_eq_flatMap (children : List Element) :
    childNames children = children.flatMap names := by
  induction children with
  | nil => rw [childNames, List.flatMap_nil]
  | cons child rest ih => rw [childNames, ih, List.flatMap_cons]

/-- No name in the element has a slash in it. -/
def Plain (e : Element) : Prop := ∀ name ∈ e.names, ComponentCatalog.Plain name

instance : DecidablePred Plain := fun e ↦
  inferInstanceAs (Decidable (∀ name ∈ e.names, ComponentCatalog.Plain name))

/-- So names can be looked at one level at a time. -/
theorem plain_iff {e : Element} :
    e.Plain ↔ ComponentCatalog.Plain e.name ∧ ∀ child ∈ e.children, child.Plain := by
  rw [Plain, names_eq, List.forall_mem_cons, childNames_eq_flatMap, List.forall_mem_flatMap]
  rfl

end Element

/-- No name in the open element has a slash in it. -/
structure OpenElement.Plain (e : OpenElement) : Prop where
  name : ComponentCatalog.Plain e.name.name
  children : ∀ child ∈ e.children, child.Plain

namespace OpenElement.Plain

variable {e : OpenElement} (he : e.Plain)

include he

theorem addText (text : List Char) : (e.addText text).Plain := ⟨he.name, he.children⟩

theorem addChild {child : Element} (hchild : child.Plain) : (e.addChild child).Plain :=
  ⟨he.name, List.forall_mem_cons.mpr ⟨hchild, he.children⟩⟩

/-- The children of an open element are kept last one first, and closing it turns them round. -/
theorem close : e.close.Plain :=
  Element.plain_iff.mpr ⟨he.name, fun child hchild ↦ he.children child (List.mem_reverse.mp hchild)⟩

end OpenElement.Plain

/-- An element has the name of its tag, and no children yet. -/
theorem OpenElement.ofTag?_plain (scope : List String) {tag : Tag}
    (htag : ComponentCatalog.Plain tag.name.name) : Gives OpenElement.Plain (ofTag? scope tag) := by
  refine (gives_true _).bind fun (scope, attributes) _ ↦ ?_
  dsimp only
  split
  · exact gives_some ⟨htag, nofun⟩
  · exact gives_none

/-! ## Outlines -/

/-- A tag that is being read gives a name without a slash. -/
def Place.Plain : Place → Prop
  | .opening s => s.Plain
  | _ => True

/-- No name has a slash in it, as far as the document was read. -/
structure Outline.Plain (o : Outline) : Prop where
  place : o.place.Plain
  opened : ∀ e ∈ o.opened, e.Plain
  root : Gives Element.Plain o.root?

namespace Outline

variable {o : Outline} {t : Token}

theorem Plain.goTo (ho : o.Plain) {place : Place} (hplace : place.Plain) : (o.goTo place).Plain :=
  ⟨hplace, ho.opened, ho.root⟩

theorem Plain.addChars (ho : o.Plain) (chars : List Char) : (o.addChars chars).Plain :=
  ⟨ho.place, ho.opened, ho.root⟩

/-- Text goes to the innermost open element, if there is one. -/
theorem Plain.addText (ho : o.Plain) (text : List Char) : (o.addText text).Plain := by
  have hopened := ho.opened
  rw [Outline.addText]
  split
  · exact ho
  · rename_i e rest heq
    rw [heq, List.forall_mem_cons] at hopened
    exact ⟨ho.place, List.forall_mem_cons.mpr ⟨hopened.1.addText text, hopened.2⟩, ho.root⟩

theorem Plain.endRun (ho : o.Plain) : o.endRun.Plain := by
  have hended : Plain { o with run := [], blank := true } := ⟨ho.place, ho.opened, ho.root⟩
  rw [Outline.endRun]
  split
  · exact hended
  · exact hended.addText _

/-- A finished element is a child of the innermost one that is open, or else the root, unless there
is a root already. -/
theorem Plain.addElement (ho : o.Plain) {opened : List OpenElement} {e : Element}
    (hopened : ∀ e ∈ opened, e.Plain) (he : e.Plain) : (o.addElement opened e).Plain := by
  rw [Outline.addElement.eq_def]
  split
  · refine ⟨ho.place, nofun, ?_⟩
    have hroot := ho.root
    cases hfound : o.root? with
    | none => exact gives_some he
    | some root =>
      rw [hfound] at hroot
      exact hroot
  · rw [List.forall_mem_cons] at hopened
    exact ⟨ho.place, List.forall_mem_cons.mpr ⟨hopened.1.addChild he, hopened.2⟩, ho.root⟩

/-- An empty tag opens its element and closes it at once. -/
theorem Plain.open? (ho : o.Plain) {tag : Tag} (htag : ComponentCatalog.Plain tag.name.name) :
    Gives Plain (o.open? tag) := by
  refine (OpenElement.ofTag?_plain o.scope htag).bind fun e he ↦ ?_
  have hgo : (o.goTo .text).Plain := ho.goTo trivial
  dsimp only
  split
  · exact gives_some (hgo.addElement hgo.opened he.close)
  · exact gives_some ⟨hgo.place, List.forall_mem_cons.mpr ⟨he, hgo.opened⟩, hgo.root⟩

/-- The name in a closing tag is compared and then forgotten. -/
theorem Plain.close? (ho : o.Plain) (name : QualifiedName) : Gives Plain (o.close? name) := by
  have hopened := ho.opened
  have hgo : (o.goTo .text).Plain := ho.goTo trivial
  rw [Outline.close?]
  split
  · exact gives_none
  · rename_i e rest heq
    rw [heq, List.forall_mem_cons] at hopened
    split
    · exact gives_some (hgo.addElement hopened.2 hopened.1.close)
    · exact gives_none

/-! ### Tokens -/

/-- In text a new name can only begin at the start of a tag, and then nothing of it is read yet. -/
theorem Plain.inText? (ho : o.Plain) (t : Token) : Gives Plain (o.inText? t) := by
  have hunless : ∀ {o' : Outline}, o'.Plain →
      Gives Plain (if o.outside then none else some o') := by
    intro o' ho'
    split
    · exact gives_none
    · exact gives_some ho'
  cases t with
  | char c =>
    rw [Outline.inText?]
    split
    · split
      · exact gives_some ho
      · exact gives_none
    · split
      · exact gives_some (ho.addChars _)
      · exact gives_none
  | tagEnd | emptyTagEnd | equals | quote | semicolon | commentEnd | instructionEnd =>
    exact hunless (ho.addChars _)
  | ampersand => exact hunless (ho.goTo trivial)
  | tagStart => exact gives_some ⟨List.not_mem_nil, ho.endRun.opened, ho.endRun.root⟩
  | closingTagStart => exact hunless (ho.endRun.goTo trivial)
  | commentStart => exact gives_some (ho.endRun.goTo trivial)
  | instructionStart => exact gives_some (ho.endRun.goTo trivial)
  | sectionStart => exact hunless (ho.endRun.goTo trivial)
  | doctypeStart =>
    rw [Outline.inText?]
    split
    · exact gives_some ⟨trivial, ho.endRun.opened, ho.endRun.root⟩
    · exact gives_none
  | sectionEnd => exact gives_none
  | declarationStart => exact gives_none

theorem Plain.endReference (ho : o.Plain) (referent : Referent) :
    (o.endReference referent).1.Plain := by
  cases referent with
  | character c => exact ⟨trivial, ho.opened, ho.root⟩
  | entity text => exact ⟨trivial, ho.opened, ho.root⟩

theorem Plain.inClosing? (ho : o.Plain) (name : QualifiedName) (t : Token) :
    Gives Plain (o.inClosing? name t) := by
  rw [Outline.inClosing?.eq_def]
  split
  · exact ho.close? name
  · split
    · exact gives_some (ho.goTo trivial)
    · exact gives_none
  · exact gives_none

/-- So it does not matter what the name in a closing tag is. -/
theorem Plain.inClosingName? (ho : o.Plain) (n : NameDraft) (t : Token) :
    Gives Plain (o.inClosingName? n t) := by
  have hfinish : ∀ t, Gives Plain (do o.inClosing? (← n.finish?) t) := fun t ↦
    (gives_true _).bind fun name _ ↦ ho.inClosing? name t
  rw [Outline.inClosingName?.eq_def]
  split
  · split
    · exact hfinish _
    · exact (gives_true _).map fun _ _ ↦ ho.goTo trivial
  · exact hfinish _

theorem Plain.inCharacterData? (ho : o.Plain) (reversed : List Char) (t : Token) :
    Gives Plain (o.inCharacterData? reversed t) := by
  rw [Outline.inCharacterData?.eq_def]
  split
  · exact gives_some ((ho.addText _).goTo trivial)
  · split
    · exact gives_some ⟨trivial, ho.opened, ho.root⟩
    · exact gives_none
  · exact gives_some (ho.goTo trivial)

theorem Plain.inInstructionName? (ho : o.Plain) (reversed : List Char) (t : Token) :
    Gives Plain (o.inInstructionName? reversed t) := by
  have hgo : ∀ (place : Place) (allowed : Bool), place.Plain →
      Gives Plain (if allowed then some (o.goTo place) else none) := by
    intro place allowed hplace
    split
    · exact gives_some (ho.goTo hplace)
    · exact gives_none
  cases t with
  | char c =>
    rw [Outline.inInstructionName?.eq_def]
    dsimp only
    split
    · exact hgo .instruction _ trivial
    · exact hgo (.instructionName (c :: reversed)) _ trivial
  | instructionEnd => exact hgo .text _ trivial
  | _ => exact gives_none

theorem Plain.inAside? (ho : o.Plain) (last t : Token) :
    Gives Plain (o.inAside? last t) := by
  rw [Outline.inAside?.eq_def]
  split
  · exact gives_some (ho.goTo trivial)
  · split
    · split
      · exact gives_some ho
      · exact gives_none
    · exact gives_some ho

/-- A document type has no elements, whatever it declares. -/
theorem Plain.inDoctype? (ho : o.Plain) (s : Doctype.State) (t : Token) :
    Gives (fun next ↦ next.1.Plain) (o.inDoctype? s t) := by
  refine (gives_true _).bind fun (entities, next) _ ↦ ?_
  cases next with
  | go s => exact gives_some ⟨trivial, ho.opened, ho.root⟩
  | expand text => exact gives_some ⟨trivial, ho.opened, ho.root⟩
  | done => exact gives_some ⟨trivial, ho.opened, ho.root⟩

/-- **One token** of a document brings no slash into a name. -/
theorem Plain.add? (ho : o.Plain) (t : Token) : Gives (fun next ↦ next.1.Plain) (o.add? t) := by
  have hplain : ∀ {o? : Option Outline}, Gives Plain o? →
      Gives (fun next ↦ next.1.Plain) (o?.map fun o ↦ (o, ([] : List Char))) :=
    fun h ↦ h.map fun _ ho ↦ ho
  have hplace := ho.place
  rw [Outline.add?.eq_def]
  cases heq : o.place with
  | text => exact hplain (ho.inText? t)
  | reference reversed =>
    cases t with
    | char c => exact hplain ((gives_true _).map fun _ _ ↦ ho.goTo trivial)
    | semicolon => exact (gives_true _).map fun referent _ ↦ ho.endReference referent
    | _ => exact gives_none
  | opening s =>
    rw [heq] at hplace
    refine hplain ((TagState.step?_plain t o.version o.entities hplace).bind fun next hnext ↦ ?_)
    cases next with
    | go s => exact gives_some (ho.goTo hnext)
    | done tag => exact ho.open? hnext
  | closing n => exact hplain (ho.inClosingName? n t)
  | afterClosing name => exact hplain (ho.inClosing? name t)
  | comment => exact hplain (ho.inAside? .commentEnd t)
  | characterData reversed => exact hplain (ho.inCharacterData? reversed t)
  | instructionName reversed => exact hplain (ho.inInstructionName? reversed t)
  | instruction => exact hplain (ho.inAside? .instructionEnd t)
  | doctype s => exact ho.inDoctype? s t

end Outline

/-! ## Documents -/

/-- What a token stands for is put before the rest of the source and read like that, so there is
nothing to show of it. -/
theorem addToken_plain {o : Outline} (ho : o.Plain) (t : Token) :
    (addToken o t).Yields Outline.Plain :=
  (Reader.yields_lift (ho.add? t)).bind fun _ ho' ↦
    (Reader.yields_true _).bind fun _ _ ↦ Reader.yields_pure ho'

/-- One character can complete several tokens. -/
theorem addCharacter_plain {progress : Tokenizer × Outline} (h : progress.2.Plain) (c : Char) :
    (addCharacter progress c).Yields fun progress ↦ progress.2.Plain :=
  (Reader.yields_lift (gives_true _)).bind fun (tokens, _) _ ↦
    (Reader.Yields.foldlM (fun _ t ho ↦ addToken_plain ho t) tokens h).bind fun _ ho ↦
      Reader.yields_pure ho

/-- **No name in a document has a slash in it.** -/
theorem plain_of_read {bytes : Bytes} {root : Element} (h : read bytes = some root) :
    root.Plain := by
  obtain ⟨⟨declaration, text⟩, -, h⟩ := Option.bind_eq_some_iff.mp h
  obtain ⟨⟨tokenizer, outline⟩, hread, h⟩ := Option.bind_eq_some_iff.mp h
  have hstart : Outline.Plain { version := declaration.version } := ⟨trivial, nofun, gives_none⟩
  have houtline : outline.Plain := by
    obtain ⟨taken, htaken, heq⟩ := Option.map_eq_some_iff.mp hread
    have hend := Reader.Yields.loopToEnd (fun _ c hp ↦ addCharacter_plain hp c)
      (a := ({}, { version := declaration.version })) hstart _ _ htaken
    rwa [heq] at hend
  dsimp only at h
  split at h
  · rw [Outline.finish?] at h
    split at h
    · split at h
      · exact houtline.root root h
      · cases h
    · cases h
  · cases h

end Xml

end ComponentCatalog
