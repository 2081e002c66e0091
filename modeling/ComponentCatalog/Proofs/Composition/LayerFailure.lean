import ComponentCatalog.Composition.Layer
import ComponentCatalog.Proofs.Outcome

/-!
# How layers fail

A layer that is applied fails for a member that its component does not have, or for a method that
makes no property of one value.  So **the failure of a layer is an unknown member or a load error**
(`LayerDocument.apply_failsInLayer`), and nothing else goes wrong.
-/

set_option autoImplicit false

namespace ComponentCatalog

universe u

/-- The failure is about what a layer says. -/
def Failure.InLayer (f : Failure) : Prop := f.kind = .unknownMember ∨ f.kind = .loadError

namespace Change

/-- The change does not fail but for what a layer says. -/
def FailsInLayer (c : Change) : Prop := ∀ d f, (c d).2 = some f → f.InLayer

theorem FailsInLayer.result {c : Change} (h : c.FailsInLayer) (d : Description) :
    FailsIn Failure.InLayer (c.result d) := by
  have hd := h d
  rw [Change.result]
  rcases hc : c d with ⟨e, _ | f⟩ <;> rw [hc] at hd
  · exact failsIn_ok e
  · exact failsIn_error.mpr (hd f rfl)

theorem failsInLayer_of (f : Description → Description) : (of f).FailsInLayer :=
  fun _ _ h ↦ nomatch h

variable {first second : Change}

theorem FailsInLayer.andThen (h : first.FailsInLayer) (h' : second.FailsInLayer) :
    (first.andThen second).FailsInLayer := by
  intro d
  have hd := h d
  rw [Change.andThen]
  rcases hfirst : first d with ⟨e, _ | f⟩ <;> rw [hfirst] at hd
  · exact h' e
  · exact hd

theorem FailsInLayer.each {α : Type u} {l : List α} {change : α → Change}
    (h : ∀ a, (change a).FailsInLayer) : (each l change).FailsInLayer := by
  induction l with
  | nil => exact failsInLayer_of id
  | cons a rest ih => exact (h a).andThen ih

end Change

/-! ## The parts of a layer -/

variable (s : Setting)

theorem Setting.unknownMember_failsInLayer (message : String) :
    (s.unknownMember message).FailsInLayer := by
  intro d f h
  rw [Setting.unknownMember] at h
  split at h
  · obtain rfl := Option.some.inj h
    exact .inl rfl
  · cases h

theorem Setting.withMethod_failsInLayer (signature message : String)
    (change : Description → Description) :
    (s.withMethod signature message change).FailsInLayer := by
  intro d
  rw [Setting.withMethod]
  split
  · exact fun f h ↦ nomatch h
  · split
    · exact fun f h ↦ nomatch h
    · exact s.unknownMember_failsInLayer message d

theorem ConstructorNote.apply_failsInLayer (n : ConstructorNote) : (n.apply s).FailsInLayer := by
  intro d
  rw [ConstructorNote.apply]
  split
  · exact fun f h ↦ nomatch h
  · exact s.unknownMember_failsInLayer _ d

theorem MethodOperation.apply_failsInLayer (o : MethodOperation) : (o.apply s).FailsInLayer := by
  intro d
  rw [MethodOperation.apply]
  split
  · dsimp only
    split
    · exact s.unknownMember_failsInLayer _ _
    · exact fun f h ↦ nomatch h
  · exact fun f h ↦ nomatch h

theorem MethodProperty.apply_failsInLayer (p : MethodProperty) : (p.apply s).FailsInLayer := by
  intro d
  rw [MethodProperty.apply]
  split
  · exact s.unknownMember_failsInLayer _ d
  · split
    · intro f h
      obtain rfl := Option.some.inj h
      exact .inr rfl
    · dsimp only
      split
      · exact fun f h ↦ nomatch h
      · exact fun f h ↦ nomatch h

namespace LayerDocument

variable (layer : LayerDocument)

theorem applyProperties_failsInLayer : (layer.applyProperties s).FailsInLayer := by
  refine (Change.failsInLayer_of _).andThen ?_
  exact (Change.FailsInLayer.each fun p ↦ p.apply_failsInLayer s).andThen (Change.failsInLayer_of _)

theorem applyMethods_failsInLayer : (layer.applyMethods s).FailsInLayer := by
  refine (Change.FailsInLayer.each fun n ↦ s.withMethod_failsInLayer _ _ _).andThen ?_
  refine (Change.FailsInLayer.each fun o ↦ o.apply_failsInLayer s).andThen ?_
  refine (Change.failsInLayer_of _).andThen ?_
  exact Change.FailsInLayer.each fun o ↦ s.withMethod_failsInLayer _ _ _

/-- **What goes wrong with a layer** is an unknown member or a load error. -/
theorem apply_failsInLayer (layerClass : String) : (layer.apply s layerClass).FailsInLayer := by
  refine (Change.failsInLayer_of _).andThen ?_
  refine (layer.applyProperties_failsInLayer s).andThen ?_
  refine Change.FailsInLayer.andThen ?_ (layer.applyMethods_failsInLayer s)
  exact Change.FailsInLayer.each fun n ↦ n.apply_failsInLayer s

end LayerDocument

end ComponentCatalog
