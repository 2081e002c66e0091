import ComponentCatalog.Layer.StandardRules
import ComponentCatalog.Proofs.Outcome

/-!
# Frames nest like elements

The calls for an element stand one around the other: each matching rule encloses those after it, and
all of them enclose the calls for the children (`Rules.calls_eq_foldr`).  A rule that opens a frame
closes it again, so **reading an element leaves the frames in shape** (`Rules.balanced_calls`): as
many of the same kinds, and untouched but for the innermost one.

The kind of a frame is told by its name.  What is asked of a rule is `Rule.Nests`, for the name of
the frame that it opens, if any.
-/

set_option autoImplicit false

namespace ComponentCatalog

open Xml

/-! ## Frames in shape -/

/-- The frames have kept their kinds, and only the innermost one can have changed. -/
structure SameShape (before after : List Frame) : Prop where
  names : after.map (·.name) = before.map (·.name)
  below : after.tail = before.tail

namespace SameShape

variable {a b c : List Frame} {f g : Frame}

@[simp] theorem refl (a : List Frame) : SameShape a a := ⟨rfl, rfl⟩

theorem trans (hab : SameShape a b) (hbc : SameShape b c) : SameShape a c :=
  ⟨hbc.names.trans hab.names, hbc.below.trans hab.below⟩

theorem length_eq (h : SameShape a b) : b.length = a.length := by
  have hlength := congrArg List.length h.names
  rwa [List.length_map, List.length_map] at hlength

theorem cons (h : g.name = f.name) (below : List Frame) :
    SameShape (f :: below) (g :: below) :=
  ⟨by rw [List.map_cons, List.map_cons, h], rfl⟩

theorem eq_nil (h : SameShape [] b) : b = [] :=
  List.length_eq_zero_iff.mp h.length_eq

theorem exists_eq_cons (h : SameShape (f :: a) b) : ∃ g, g.name = f.name ∧ b = g :: a := by
  cases b with
  | nil => exact absurd h.length_eq (by simp)
  | cons g below =>
    obtain rfl : below = a := h.below
    exact ⟨g, (List.cons.inj h.names).1, rfl⟩

end SameShape

/-! ## Rules that close what they open -/

/-- What opening does to the frames: it opens a frame of the name, or keeps their shape. -/
def Opened (kind? : Option String) (before after : List Frame) : Prop :=
  match kind? with
  | some kind => ∃ frame, frame.name = kind ∧ after = frame :: before
  | none => SameShape before after

/-- What closing does to the frames: it closes a frame of the name, or keeps their shape. -/
def Closed (kind? : Option String) (before after : List Frame) : Prop :=
  match kind? with
  | some kind => ∃ frame rest, frame.name = kind ∧ before = frame :: rest ∧ SameShape rest after
  | none => SameShape before after

/-- What stays in shape between opening and closing is in shape when all is done. -/
theorem Closed.sameShape {kind? : Option String} {a b c d : List Frame} (hopen : Opened kind? a b)
    (hinner : SameShape b c) (hclose : Closed kind? c d) : SameShape a d := by
  cases kind? with
  | none => exact (hopen.trans hinner).trans hclose
  | some kind =>
    obtain ⟨frame, -, rfl⟩ := hopen
    obtain ⟨frame', -, rfl⟩ := hinner.exists_eq_cons
    obtain ⟨_, rest, -, heq, hrest⟩ := hclose
    obtain ⟨-, rfl⟩ := List.cons.inj heq
    exact hrest

/-- The rule opens a frame of the name and closes it, or keeps the frames in shape. -/
structure Rule.Nests (kind? : Option String) (rule : Rule) : Prop where
  onOpen : ∀ e r, SucceedsIn (fun r' ↦ Opened kind? r.frames r'.frames) (rule.onOpen e r)
  onClose : ∀ e r, SucceedsIn (fun r' ↦ Closed kind? r.frames r'.frames) (rule.onClose e r)

/-! ## Calls one around the other -/

namespace Rules

variable {rules : List Rule}

theorem run_nil (r : Reading) : run [] r = .ok r := rfl

theorem run_cons (c : Call) (calls : List Call) (r : Reading) :
    run (c :: calls) r = c.run r >>= run calls := List.foldlM_cons

theorem run_append (calls more : List Call) (r : Reading) :
    run (calls ++ more) r = run calls r >>= run more := List.foldlM_append

/-- The calls of a rule for an element, around other calls. -/
def enclose (e : Element) (rule : Rule) (inner : List Call) : List Call :=
  ⟨rule, true, e⟩ :: inner ++ [⟨rule, false, e⟩]

theorem map_append_eq_foldr (e : Element) (matching : List Rule) (inner : List Call) :
    matching.map (⟨·, true, e⟩) ++ inner ++ matching.reverse.map (⟨·, false, e⟩) =
      matching.foldr (enclose e) inner := by
  induction matching with
  | nil => simp
  | cons rule matching ih =>
    rw [List.foldr_cons, ← ih]
    simp [enclose]

/-- Each matching rule encloses those after it, the last one the children. -/
theorem calls_eq_foldr (rules : List Rule) (path : String) (e : Element) :
    calls rules path e =
      (rules.filter (·.matches path)).foldr (enclose e) (childCalls rules path e.children) := by
  obtain ⟨name, attributes, text, children⟩ := e
  rw [calls, map_append_eq_foldr]

theorem childCalls_append (path : String) (first second : List Element) :
    childCalls rules path (first ++ second) =
      childCalls rules path first ++ childCalls rules path second := by
  induction first with
  | nil => rfl
  | cons child first ih => rw [List.cons_append, childCalls, childCalls, ih, List.append_assoc]

/-! ## Calls that keep frames in shape -/

/-- Making the calls leaves the frames in shape, if none fails. -/
def Balanced (calls : List Call) : Prop :=
  ∀ r, SucceedsIn (fun r' ↦ SameShape r.frames r'.frames) (run calls r)

theorem balanced_nil : Balanced [] := by
  intro r
  rw [run_nil, succeedsIn_ok]
  exact .refl _

theorem Balanced.append {calls more : List Call} (h : Balanced calls) (hmore : Balanced more) :
    Balanced (calls ++ more) := by
  intro r
  rw [run_append, succeedsIn_bind_iff]
  intro m hm
  exact (hmore m).mono fun r' hr' ↦ (h r m hm).trans hr'

theorem Balanced.enclose {rule : Rule} {kind? : Option String} (hrule : rule.Nests kind?)
    {inner : List Call} (h : Balanced inner) (e : Element) : Balanced (enclose e rule inner) := by
  intro r r' hr
  rw [Rules.enclose, List.cons_append, run_cons] at hr
  obtain ⟨opened, hopen, hr⟩ := bind_eq_ok_iff.mp hr
  rw [run_append] at hr
  obtain ⟨inside, hinside, hr⟩ := bind_eq_ok_iff.mp hr
  rw [run_cons] at hr
  obtain ⟨closed, hclose, hr⟩ := bind_eq_ok_iff.mp hr
  obtain rfl := Except.ok.inj hr
  exact Closed.sameShape (hrule.onOpen e r opened hopen) (h opened inside hinside)
    (hrule.onClose e inside closed hclose)

/-- All the rules close what they open. -/
def Nest (rules : List Rule) : Prop := ∀ rule ∈ rules, ∃ kind?, rule.Nests kind?

theorem Balanced.foldr_enclose (hrules : Nest rules) {inner : List Call} (h : Balanced inner)
    (e : Element) : Balanced (rules.foldr (Rules.enclose e) inner) := by
  induction rules with
  | nil => exact h
  | cons rule rules ih =>
    obtain ⟨kind?, hrule⟩ := hrules rule List.mem_cons_self
    exact (ih fun rule' hmem ↦ hrules rule' (List.mem_cons_of_mem _ hmem)).enclose hrule e

mutual

/-- **Reading an element leaves the frames in shape**, at any path and in any state. -/
theorem balanced_calls (hrules : Nest rules) (path : String) :
    ∀ e : Element, Balanced (calls rules path e)
  | ⟨name, attributes, text, children⟩ => by
    rw [calls_eq_foldr]
    have hmatching : Nest (rules.filter (·.matches path)) :=
      fun rule hrule ↦ hrules rule (List.mem_filter.mp hrule).1
    exact (balanced_childCalls hrules path children).foldr_enclose hmatching _

theorem balanced_childCalls (hrules : Nest rules) (path : String) :
    ∀ children : List Element, Balanced (childCalls rules path children)
  | [] => by
    rw [childCalls]
    exact balanced_nil
  | child :: rest => by
    rw [childCalls]
    exact (balanced_calls hrules _ child).append (balanced_childCalls hrules path rest)

end

end Rules

end ComponentCatalog
