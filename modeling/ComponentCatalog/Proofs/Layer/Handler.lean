import ComponentCatalog.Proofs.Layer.Merge
import ComponentCatalog.Proofs.Layer.Nesting

/-!
# What handlers do

A handler does little.  When an element opens, it asks for attributes and for the frame that the
element stands in, and then begins a frame, changes the innermost one or adds to the document.  When
the element closes, it takes the innermost frame and puts it in its place.  `Placing`, `Opening` and
`Closing` say so once, and what is needed of handlers follows from that by cases:

* what opens a frame closes **a frame of the same kind** (`Rule.Obeys.nests`);
* where the innermost frame is of the kind that the element belongs to, it **fails for an attribute
  only** when it opens, and does not fail when it closes (`Opening.fails_in_place`,
  `Closing.succeeds_in_place`);
* in any other place an opening element can also be **misplaced** (`Opening.fails`);
* **no handler reads the document** (`Rule.Obeys.independent`): it comes to the same whether
  something is said before or is merged in afterwards.
-/

set_option autoImplicit false

namespace ComponentCatalog

open Xml

/-! ## Kinds of failure -/

namespace Failure

/-- The last character of the message. -/
def last? (f : Failure) : Option Char := f.message.toList.getLast?

theorem last?_load (text ending : String) :
    (load (text ++ ending)).last? = ending.toList.getLast?.or text.toList.getLast? := by
  rw [last?, load, of, String.toList_append, List.getLast?_append]

/-- The failure is about an attribute: it ends with a name or a value in quotes, as no other failure
of a handler does. -/
def IsAttribute (f : Failure) : Prop := f.last? = some '\''

theorem isAttribute_load (text : String) : (load (text ++ "'")).IsAttribute := last?_load text "'"

/-- The failure is that an element does not belong to what is under construction. -/
def IsMisplaced (f : Failure) : Prop := ∃ e found?, f = misplaced e found?

theorem isMisplaced_misplaced (e : Element) (found? : Option String) :
    (misplaced e found?).IsMisplaced := ⟨e, found?, rfl⟩

theorem IsMisplaced.last? {f : Failure} (h : f.IsMisplaced) : f.last? = some ')' := by
  obtain ⟨e, found?, rfl⟩ := h
  rw [misplaced, last?_load]
  rfl

theorem last?_emptyStack (e : Element) : (emptyStack e).last? = some 'k' := by
  rw [emptyStack, last?_load]
  rfl

theorem last?_unterminated (frame : Frame) : (unterminated frame).last? = some 't' := by
  rw [unterminated, last?_load]
  rfl

end Failure

/-- The outcome is no failure but for an attribute. -/
abbrev FailsForAttribute {α : Type} (x : Except Failure α) : Prop := FailsIn Failure.IsAttribute x

namespace Xml.Element

variable (e : Element)

theorem required_failsForAttribute (name : String) : FailsForAttribute (e.required name) := by
  rw [required]
  split
  · exact failsIn_ok _
  · exact failsIn_error.mpr (Failure.isAttribute_load _)

theorem flag_failsForAttribute (name : String) : FailsForAttribute (e.flag name) := by
  rw [flag]
  split
  · exact failsIn_ok _
  · split
    · exact failsIn_ok _
    · split
      · exact failsIn_ok _
      · exact failsIn_error.mpr (Failure.isAttribute_load _)

theorem namesAttribute_failsForAttribute : FailsForAttribute e.namesAttribute :=
  (e.required_failsForAttribute "names").bind fun _ _ ↦ failsIn_pure _

theorem orderAttribute_failsForAttribute : FailsForAttribute e.orderAttribute := by
  refine (e.required_failsForAttribute "order").bind fun text _ ↦ ?_
  rw [MethodOrder.parse]
  split
  · exact failsIn_ok _
  · rename_i message h
    split at h
    · cases h
    · obtain rfl := Except.error.inj h
      exact failsIn_error.mpr (Failure.isAttribute_load _)

end Xml.Element

theorem readCategory_failsForAttribute (text : String) : FailsForAttribute (readCategory text) := by
  rw [readCategory, PropertyCategory.parse]
  split
  · exact failsIn_ok _
  · rename_i message h
    split at h
    · cases h
    · obtain rfl := Except.error.inj h
      exact failsIn_error.mpr (Failure.isAttribute_load _)

/-! ## Handlers -/

/-- What is asked of the innermost frame; an element that stands in none or in another is
misplaced. -/
def Reading.askTop {α : Type} (r : Reading) (e : Element) (ask : Frame → Option α) :
    Except Failure α :=
  match r.frames with
  | [] => .error (.misplaced e none)
  | frame :: _ =>
    match ask frame with
    | some a => .ok a
    | none => .error (.misplaced e (some frame.name))

/-- The kind of the innermost frame. -/
def Reading.topKind? (r : Reading) : Option String := r.frames.head?.map (·.name)

/-- There is an innermost frame, and those of its kind have an answer. -/
def Answered {α : Type} (top? : Option String) (ask : Frame → Option α) : Prop :=
  ∃ kind, top? = some kind ∧ ∀ frame, frame.name = kind → (ask frame).isSome

/-- A handler, at an element in a frame of the kind `top?`, that changes the document or the
innermost frame. -/
inductive Placing (e : Element) (top? : Option String) : (Reading → Except Failure Reading) → Prop
  | keep : Placing e top? fun r ↦ .ok r
  | edit {change : LayerDocument → LayerDocument} (hadds : LayerDocument.Additive change) :
      Placing e top? fun r ↦ .ok (r.edit change)
  | editTop {change : Frame → Option Frame}
      (hkeeps : ∀ frame changed, change frame = some changed → changed.name = frame.name)
      (hanswers : Answered top? change) :
      Placing e top? fun r ↦ r.editTop e change

/-- A handler for an opening element, that begins a frame of the kind `kind?`, if any. -/
inductive Opening (e : Element) (top? : Option String) :
    Option String → (Reading → Except Failure Reading) → Prop
  | place {h : Reading → Except Failure Reading} (hplaces : Placing e top? h) :
      Opening e top? none h
  | push {frame : Frame} {kind : String} (hkind : frame.name = kind) :
      Opening e top? (some kind) fun r ↦ .ok (r.push frame)
  | read {kind? : Option String} {α : Type} {x : Except Failure α}
      {next : α → Reading → Except Failure Reading} (hreads : FailsForAttribute x)
      (hnext : ∀ a, Opening e top? kind? (next a)) :
      Opening e top? kind? fun r ↦ x >>= fun a ↦ next a r
  | ask {kind? : Option String} {α : Type} {ask : Frame → Option α}
      {next : α → Reading → Except Failure Reading} (hanswers : Answered top? ask)
      (hnext : ∀ a, Opening e top? kind? (next a)) :
      Opening e top? kind? fun r ↦ r.askTop e ask >>= fun a ↦ next a r

/-- A handler for a closing element, that ends a frame of the kind `kind?`, if any. -/
inductive Closing (e : Element) (top? : Option String) :
    Option String → (Reading → Except Failure Reading) → Prop
  | nothing : Closing e top? none fun r ↦ .ok r
  | pop {kind : String} {put : Frame × Reading → Except Failure Reading}
      (hplaces : ∀ frame, frame.name = kind → Placing e top? fun r ↦ put (frame, r))
      (hrefuses : ∀ frame r, frame.name ≠ kind →
        put (frame, r) = .error (.misplaced e (some frame.name))) :
      Closing e top? (some kind) fun r ↦ r.pop e >>= put

/-- The rule is for elements in a frame of the kind `top?`, and makes frames of the kind `kind?`. -/
structure Rule.Obeys (top? kind? : Option String) (rule : Rule) : Prop where
  onOpen : ∀ e, Opening e top? kind? (rule.onOpen e)
  onClose : ∀ e, Closing e top? kind? (rule.onClose e)

variable {e : Element} {top? kind? : Option String} {h : Reading → Except Failure Reading}

/-! ## What handlers do to frames -/

namespace Reading

theorem pop_eq_ok_iff {r s : Reading} {frame : Frame} :
    r.pop e = .ok (frame, s) ↔
      ∃ rest, r.frames = frame :: rest ∧ s = { r with frames := rest } := by
  rw [pop]
  split
  · rename_i hframes
    simp [hframes]
  · rename_i top rest hframes
    constructor
    · intro heq
      obtain ⟨rfl, rfl⟩ := Prod.mk.inj (Except.ok.inj heq)
      exact ⟨rest, hframes, rfl⟩
    · rintro ⟨rest', heq, rfl⟩
      obtain ⟨rfl, rfl⟩ := List.cons.inj (hframes.symm.trans heq)
      rfl

end Reading

theorem Placing.sameShape (hh : Placing e top? h) (r : Reading) :
    SucceedsIn (fun r' ↦ SameShape r.frames r'.frames) (h r) := by
  cases hh with
  | keep => exact succeedsIn_ok.mpr (.refl _)
  | edit => exact succeedsIn_ok.mpr (.refl _)
  | editTop hkeeps =>
    dsimp only [Reading.editTop]
    split
    · exact succeedsIn_error _
    · rename_i frame rest hframes
      split
      · rename_i changed hchange
        rw [succeedsIn_ok, hframes]
        exact .cons (hkeeps frame changed hchange) rest
      · exact succeedsIn_error _

theorem Opening.opened (hh : Opening e top? kind? h) (r : Reading) :
    SucceedsIn (fun r' ↦ Opened kind? r.frames r'.frames) (h r) := by
  induction hh generalizing r with
  | place hplaces => exact hplaces.sameShape r
  | push hkind => exact succeedsIn_ok.mpr ⟨_, hkind, rfl⟩
  | read _ _ ih => exact succeedsIn_bind_iff.mpr fun a _ ↦ ih a r
  | ask _ _ ih => exact succeedsIn_bind_iff.mpr fun a _ ↦ ih a r

theorem Closing.closed (hh : Closing e top? kind? h) (r : Reading) :
    SucceedsIn (fun r' ↦ Closed kind? r.frames r'.frames) (h r) := by
  cases hh with
  | nothing => exact succeedsIn_ok.mpr (.refl _)
  | @pop kind put hplaces hrefuses =>
    refine succeedsIn_bind_iff.mpr fun (frame, s) hpop ↦ ?_
    obtain ⟨rest, hframes, rfl⟩ := Reading.pop_eq_ok_iff.mp hpop
    by_cases hkind : frame.name = kind
    · exact ((hplaces frame hkind).sameShape _).mono fun r' hr' ↦ ⟨frame, rest, hkind, hframes, hr'⟩
    · rw [hrefuses frame _ hkind]
      exact succeedsIn_error _

theorem Rule.Obeys.nests {rule : Rule} (hrule : rule.Obeys top? kind?) : rule.Nests kind? where
  onOpen e := (hrule.onOpen e).opened
  onClose e := (hrule.onClose e).closed

/-! ## How handlers fail -/

namespace Answered

variable {α : Type} {ask : Frame → Option α}

/-- A frame that is asked for what it has. -/
theorem askTop (hask : Answered top? ask) {r : Reading} (hr : r.topKind? = top?) :
    ∃ a, r.askTop e ask = .ok a := by
  obtain ⟨kind, rfl, hanswers⟩ := hask
  obtain ⟨frame, hframe, hkind⟩ := Option.map_eq_some_iff.mp hr
  obtain ⟨rest, hframes⟩ := List.head?_eq_some_iff.mp hframe
  obtain ⟨a, ha⟩ := Option.isSome_iff_exists.mp (hanswers frame hkind)
  rw [Reading.askTop, hframes]
  exact ⟨a, by simp only [ha]⟩

theorem editTop {change : Frame → Option Frame} (hchange : Answered top? change) {r : Reading}
    (hr : r.topKind? = top?) : ∃ r', r.editTop e change = .ok r' := by
  obtain ⟨kind, rfl, hanswers⟩ := hchange
  obtain ⟨frame, hframe, hkind⟩ := Option.map_eq_some_iff.mp hr
  obtain ⟨rest, hframes⟩ := List.head?_eq_some_iff.mp hframe
  obtain ⟨changed, hchanged⟩ := Option.isSome_iff_exists.mp (hanswers frame hkind)
  rw [Reading.editTop, hframes]
  exact ⟨{ r with frames := changed :: rest }, by simp only [hchanged]⟩

end Answered

theorem Placing.succeeds_in_place (hh : Placing e top? h) {r : Reading} (hr : r.topKind? = top?) :
    ∃ r', h r = .ok r' := by
  cases hh with
  | keep => exact ⟨_, rfl⟩
  | edit => exact ⟨_, rfl⟩
  | editTop _ hanswers => exact hanswers.editTop hr

/-- An element in its place fails for an attribute only. -/
theorem Opening.fails_in_place (hh : Opening e top? kind? h) {r : Reading}
    (hr : r.topKind? = top?) : FailsForAttribute (h r) := by
  induction hh with
  | place hplaces =>
    obtain ⟨r', hr'⟩ := hplaces.succeeds_in_place hr
    rw [hr']
    exact failsIn_ok r'
  | push => exact failsIn_ok _
  | read hreads _ ih => exact hreads.bind fun a _ ↦ ih a
  | ask hanswers _ ih =>
    obtain ⟨a, ha⟩ := hanswers.askTop (e := e) hr
    dsimp only
    rw [ha]
    exact ih a

theorem Reading.editTop_failsIn (r : Reading) (change : Frame → Option Frame) :
    FailsIn Failure.IsMisplaced (r.editTop e change) := by
  rw [editTop]
  split
  · exact failsIn_error.mpr (Failure.isMisplaced_misplaced _ _)
  · split
    · exact failsIn_ok _
    · exact failsIn_error.mpr (Failure.isMisplaced_misplaced _ _)

theorem Reading.askTop_failsIn {α : Type} (r : Reading) (ask : Frame → Option α) :
    FailsIn Failure.IsMisplaced (r.askTop e ask) := by
  rw [askTop]
  split
  · exact failsIn_error.mpr (Failure.isMisplaced_misplaced _ _)
  · split
    · exact failsIn_ok _
    · exact failsIn_error.mpr (Failure.isMisplaced_misplaced _ _)

theorem Placing.fails (hh : Placing e top? h) (r : Reading) :
    FailsIn Failure.IsMisplaced (h r) := by
  cases hh with
  | keep => exact failsIn_ok _
  | edit => exact failsIn_ok _
  | editTop => exact r.editTop_failsIn _

/-- An element in any place fails for an attribute, or since it is misplaced. -/
theorem Opening.fails (hh : Opening e top? kind? h) (r : Reading) :
    FailsIn (fun f ↦ f.IsAttribute ∨ f.IsMisplaced) (h r) := by
  induction hh with
  | place hplaces => exact (hplaces.fails r).mono fun _ ↦ .inr
  | push => exact failsIn_ok _
  | read hreads _ ih => exact (hreads.mono fun _ ↦ .inl).bind fun a _ ↦ ih a
  | ask _ _ ih => exact ((r.askTop_failsIn _).mono fun _ ↦ .inr).bind fun a _ ↦ ih a

theorem Closing.eq_ok_of_none (hh : Closing e top? none h) (r : Reading) : h r = .ok r := by
  cases hh with
  | nothing => rfl

/-- An element closes what it has opened in its place. -/
theorem Closing.succeeds_in_place (hh : Closing e top? kind? h) {before : List Frame}
    (htop : before.head?.map (·.name) = top?) {r : Reading} (hr : Opened kind? before r.frames) :
    ∃ r', h r = .ok r' := by
  cases hh with
  | nothing => exact ⟨r, rfl⟩
  | @pop kind put hplaces hrefuses =>
    obtain ⟨frame, hkind, hframes⟩ := hr
    have hpop : r.pop e = .ok (frame, { r with frames := before }) :=
      Reading.pop_eq_ok_iff.mpr ⟨before, hframes, rfl⟩
    dsimp only
    rw [hpop]
    exact (hplaces frame hkind).succeeds_in_place htop

/-! ## Handlers and the document -/

/-- The state with something said before. -/
def Reading.over (r : Reading) (d : LayerDocument) : Reading :=
  { r with document := d.merge r.document }

/-- It comes to the same whether something is said before or is merged in afterwards. -/
def Independent (h : Reading → Except Failure Reading) : Prop :=
  ∀ r d, h (r.over d) = (·.over d) <$> h r

theorem Placing.independent (hh : Placing e top? h) : Independent h := by
  intro r d
  cases hh with
  | keep => rfl
  | edit hadds =>
    show Except.ok ((r.over d).edit _) = Except.ok ((r.edit _).over d)
    rw [Reading.edit, Reading.over, hadds]
    rfl
  | editTop =>
    dsimp only [Reading.editTop, Reading.over]
    split
    · rfl
    · split
      · rfl
      · rfl

theorem Reading.askTop_over {α : Type} (r : Reading) (d : LayerDocument) (ask : Frame → Option α) :
    (r.over d).askTop e ask = r.askTop e ask := rfl

theorem Opening.independent (hh : Opening e top? kind? h) : Independent h := by
  induction hh with
  | place hplaces => exact hplaces.independent
  | push => exact fun _ _ ↦ rfl
  | @read _ _ x _ _ _ ih =>
    intro r d
    dsimp only
    rw [map_bind]
    exact congrArg (x >>= ·) (funext fun a ↦ ih a r d)
  | @ask _ _ ask _ _ _ ih =>
    intro r d
    dsimp only
    rw [map_bind, Reading.askTop_over]
    exact congrArg (r.askTop e ask >>= ·) (funext fun a ↦ ih a r d)

theorem Closing.independent (hh : Closing e top? kind? h) : Independent h := by
  intro r d
  cases hh with
  | nothing => rfl
  | @pop kind put hplaces hrefuses =>
    dsimp only
    rw [Reading.pop, Reading.pop, Reading.over]
    dsimp only
    cases r.frames with
    | nil => rfl
    | cons frame rest =>
      by_cases hkind : frame.name = kind
      · exact (hplaces frame hkind).independent { r with frames := rest } d
      · show put (frame, _) = _ <$> put (frame, _)
        rw [hrefuses frame _ hkind, hrefuses frame _ hkind]
        rfl

theorem Rule.Obeys.independent {rule : Rule} (hrule : rule.Obeys top? kind?) (opens : Bool)
    (e : Element) : Independent (Call.run ⟨rule, opens, e⟩) := by
  cases opens with
  | true => exact (hrule.onOpen e).independent
  | false => exact (hrule.onClose e).independent

end ComponentCatalog
