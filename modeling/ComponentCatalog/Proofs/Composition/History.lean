import ComponentCatalog.Proofs.Composition.Layering
import ComponentCatalog.Proofs.Description.Overrides

/-!
# The history of a description

From `Description.ofClass` on a description goes through many hands: layers are applied to it and
finished, one or the other of them may fail half-way, properties are added and overridden, and in
the end the table of properties is joined.  A **history** is any list of such steps, in any order;
the settings of its layers need not agree.

What holds at every point of every history is an invariant, and `Description.Invariant` says what
there is to show for one: that the steps of a layer on members keep it (`Description.MemberStep`),
and that it looks at members and the class alone.  That a layer keeps it, **whether or not it
fails** (`Invariant.apply`), and that a history keeps it (`Invariant.after`), follows once and for
all.
-/

set_option autoImplicit false

namespace ComponentCatalog

/-! ## Changes that preserve a property -/

namespace Change

/-- What holds before the change holds after it, also if it fails. -/
def Preserves (P : Description → Prop) (c : Change) : Prop := ∀ d, P d → P (c d).1

variable {P : Description → Prop} {R : Description → Description → Prop}

theorem preserves_of {f : Description → Description} (h : ∀ d, P d → P (f d)) :
    (of f).Preserves P := h

theorem Preserves.andThen {first second : Change} (h₁ : first.Preserves P)
    (h₂ : second.Preserves P) : (first.andThen second).Preserves P := by
  intro d hd
  have hfirst := h₁ d hd
  rw [Change.andThen]
  rcases heq : first d with ⟨e, _ | f⟩ <;> rw [heq] at hfirst
  · exact h₂ e hfirst
  · exact hfirst

theorem Follows.preserves {c : Change} (h : c.Follows R) (hR : ∀ d e, R d e → P d → P e) :
    c.Preserves P := by
  intro d hd
  have hreach := h d
  generalize (c d).1 = e at hreach ⊢
  induction hreach with
  | refl => exact hd
  | tail _ hstep ih => exact hR _ _ hstep ih

end Change

/-! ## Histories -/

/-- What is done to a description on its way. -/
inductive CompositionStep where
  | layer (s : Setting) (document : LayerDocument) (layerClass : String)
  | finish (layerClass : String)
  | property (step : PropertyStep)
  | join

/-- The description after a step.  A layer that fails leaves what it has done so far. -/
def CompositionStep.apply (d : Description) : CompositionStep → Description
  | layer s document layerClass => (document.apply s layerClass d).1
  | finish layerClass => d.finishLayer layerClass
  | property step => step.apply d
  | join => d.joinProperties

namespace Description

/-- The description after steps in order. -/
def after (d : Description) (steps : List CompositionStep) : Description :=
  steps.foldl CompositionStep.apply d

theorem after_append (d : Description) (steps later : List CompositionStep) :
    d.after (steps ++ later) = (d.after steps).after later :=
  List.foldl_append

/-- Layers that can be composed make a history, each applied and then finished. -/
theorem eq_after_of_compose {s : Setting} {layers : List ClassLayer} {d e : Description}
    (h : d.compose s layers = .ok e) :
    e = d.after
      (layers.flatMap fun l ↦ [.layer s l.document l.layerClass, .finish l.layerClass]) := by
  induction layers generalizing d with
  | nil => exact (Except.ok.inj h).symm
  | cons l layers ih =>
    obtain ⟨m, hm, h⟩ := compose_cons_eq_ok_iff.mp h
    obtain ⟨a, ha, hm⟩ := bind_eq_ok_iff.mp hm
    obtain rfl := Except.ok.inj hm
    have hfirst : d.after [.layer s l.document l.layerClass, .finish l.layerClass] =
        a.finishLayer l.layerClass :=
      congrArg (fun r ↦ r.1.finishLayer l.layerClass) (Change.result_eq_ok_iff.mp ha)
    rw [List.flatMap_cons, after_append, hfirst]
    exact ih h

/-- The two are of the same class and have the same members. -/
structure SameMembers (d e : Description) : Prop where
  classDecl : e.classDecl = d.classDecl
  table : e.table = d.table
  constructors : e.constructors = d.constructors
  methods : e.methods = d.methods

theorem sameMembers_applyHead (s : Setting) (layer : LayerDocument) (layerClass : String)
    (d : Description) : SameMembers d (layer.applyHead s layerClass d) :=
  ⟨rfl, rfl, rfl, rfl⟩

theorem sameMembers_finishLayer (layerClass : String) (d : Description) :
    SameMembers d (d.finishLayer layerClass) := by
  rw [finishLayer]
  split
  · exact ⟨rfl, rfl, rfl, rfl⟩
  · exact ⟨rfl, rfl, rfl, rfl⟩

/-- What every step of a history keeps, as long as its layers are applied in settings that satisfy
`Against`. -/
structure Invariant (Against : Setting → Prop) (P : Description → Prop) : Prop where
  member : ∀ {s}, Against s → ∀ d e, MemberStep s d e → P d → P e
  frame : ∀ {d e}, SameMembers d e → P d → P e
  property : ∀ {d} (step : PropertyStep), P d → P (step.apply d)
  join : ∀ {d}, P d → P d.joinProperties

namespace Invariant

variable {Against : Setting → Prop} {P : Description → Prop} (h : Invariant Against P)

include h

/-- **A layer keeps an invariant**, also if it fails. -/
theorem apply {s : Setting} (hs : Against s) (layer : LayerDocument) (layerClass : String) :
    (layer.apply s layerClass).Preserves P := by
  have hmember := h.member hs
  have hhead : (Change.of (layer.applyHead s layerClass)).Preserves P :=
    Change.preserves_of fun d ↦ h.frame (sameMembers_applyHead s layer layerClass d)
  refine hhead.andThen ?_
  refine ((layer.applyProperties_follows s).preserves hmember).andThen ?_
  refine ((layer.applyConstructors_follows s).preserves hmember).andThen ?_
  refine ((layer.applyNotes_follows s).preserves hmember).andThen ?_
  refine ((layer.applyOperations_follows s).preserves hmember).andThen ?_
  -- The order of all other methods, which comes before the orders of single ones, is no member.
  refine Change.Preserves.andThen (fun d ↦ h.frame ⟨rfl, rfl, rfl, rfl⟩) ?_
  exact (layer.applyOrders_follows s).preserves hmember

/-- **A history keeps an invariant.** -/
theorem after {d : Description} {steps : List CompositionStep} (hd : P d)
    (hsteps : ∀ s document layerClass, .layer s document layerClass ∈ steps → Against s) :
    P (d.after steps) := by
  induction steps generalizing d with
  | nil => exact hd
  | cons step steps ih =>
    refine ih ?_ fun s document layerClass hmem ↦
      hsteps s document layerClass (List.mem_cons_of_mem _ hmem)
    cases step with
    | layer s document layerClass =>
      exact h.apply (hsteps s document layerClass List.mem_cons_self) document layerClass d hd
    | finish layerClass => exact h.frame (sameMembers_finishLayer layerClass d) hd
    | property step => exact h.property step hd
    | join => exact h.join hd

end Invariant

end Description

end ComponentCatalog
