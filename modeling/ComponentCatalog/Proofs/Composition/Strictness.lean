import ComponentCatalog.Composition.Layer

/-!
# Strict and lenient settings

A strict setting refuses metadata that names a member which the component does not have, and a
lenient one goes on.  **That is all the difference**: where the strict change does not refuse, both
leave the same description and fail alike, and the lenient one never refuses (`Change.AgreesWith`).

The two are run side by side.  Agreement is shown for `Setting.unknownMember`, the only place where
the settings differ, and goes through `Change.andThen` and `Change.each` to all parts of a layer.
-/

set_option autoImplicit false

namespace ComponentCatalog

universe u

/-- The same setting, strict or lenient. -/
def Setting.withStrictMembers (s : Setting) (strictMembers : Bool) : Setting :=
  { s with strictMembers }

/-- A strict and a lenient outcome agree: the strict one is the refusal of an unknown member or
both are the same, and the lenient one is no such refusal.  `failure?` tells the failure of an
outcome. -/
structure Agree {α : Type u} (failure? : α → Option Failure) (strict lenient : α) : Prop where
  refused_or_eq :
    (∃ f, failure? strict = some f ∧ f.kind = .unknownMember) ∨ strict = lenient
  not_refused : ∀ f, failure? lenient = some f → f.kind ≠ .unknownMember

theorem Agree.refl {α : Type u} {failure? : α → Option Failure} {a : α}
    (h : ∀ f, failure? a = some f → f.kind ≠ .unknownMember) : Agree failure? a a :=
  ⟨.inr rfl, h⟩

namespace Change

/-- What a strict change leaves of any description agrees with what a lenient one leaves. -/
def AgreesWith (strict lenient : Change) : Prop := ∀ d, Agree Prod.snd (strict d) (lenient d)

theorem agree_done (d : Description) : Agree Prod.snd (d, none) (d, none) :=
  Agree.refl fun _ h ↦ nomatch h

theorem agrees_of (f : Description → Description) : (of f).AgreesWith (of f) :=
  fun d ↦ agree_done (f d)

variable {strict lenient strict' lenient' : Change}

theorem AgreesWith.andThen (h : strict.AgreesWith lenient) (h' : strict'.AgreesWith lenient') :
    (strict.andThen strict').AgreesWith (lenient.andThen lenient') := by
  intro d
  obtain ⟨hstrict, hlenient⟩ := h d
  constructor
  · rw [Change.andThen, Change.andThen]
    rcases hstrict with ⟨f, hf, hkind⟩ | heq
    · rcases hs : strict d with ⟨e, _ | g⟩
      · rw [hs] at hf
        cases hf
      · rw [hs] at hf
        exact .inl ⟨f, hf, hkind⟩
    · rw [heq]
      rcases lenient d with ⟨e, _ | g⟩
      · exact (h' e).refused_or_eq
      · exact .inr rfl
  · rw [Change.andThen]
    rcases hl : lenient d with ⟨e, _ | g⟩
    · exact (h' e).not_refused
    · rw [hl] at hlenient
      exact hlenient

theorem AgreesWith.each {α : Type u} {l : List α} {strict lenient : α → Change}
    (h : ∀ a, (strict a).AgreesWith (lenient a)) : (each l strict).AgreesWith (each l lenient) := by
  induction l with
  | nil => exact agrees_of id
  | cons a rest ih => exact (h a).andThen ih

end Change

/-! ## The parts of a layer -/

variable (s : Setting)

/-- The one place where the settings differ. -/
theorem Setting.unknownMember_agrees (message : String) :
    Change.AgreesWith ((s.withStrictMembers true).unknownMember message)
      ((s.withStrictMembers false).unknownMember message) :=
  fun _ ↦ ⟨.inl ⟨_, rfl, rfl⟩, fun _ h ↦ nomatch h⟩

theorem Setting.withMethod_agrees (signature message : String)
    (change : Description → Description) :
    Change.AgreesWith ((s.withStrictMembers true).withMethod signature message change)
      ((s.withStrictMembers false).withMethod signature message change) := by
  intro d
  rw [Setting.withMethod, Setting.withMethod]
  split
  · exact Change.agree_done _
  · have hhierarchy (b : Bool) : (s.withStrictMembers b).hierarchy = s.hierarchy := rfl
    rw [hhierarchy, hhierarchy]
    split
    · exact Change.agree_done _
    · exact s.unknownMember_agrees message d

theorem ConstructorNote.apply_agrees (n : ConstructorNote) :
    Change.AgreesWith (n.apply (s.withStrictMembers true))
      (n.apply (s.withStrictMembers false)) := by
  intro d
  rw [ConstructorNote.apply, ConstructorNote.apply]
  split
  · exact Change.agree_done _
  · exact s.unknownMember_agrees _ d

theorem MethodOperation.apply_agrees (o : MethodOperation) :
    Change.AgreesWith (o.apply (s.withStrictMembers true))
      (o.apply (s.withStrictMembers false)) := by
  intro d
  rw [MethodOperation.apply, MethodOperation.apply]
  split
  · have hmatched (b : Bool) : o.matched (s.withStrictMembers b) = o.matched s := rfl
    simp only [hmatched]
    split
    · exact s.unknownMember_agrees _ _
    · exact Change.agree_done _
  · exact Change.agree_done _

theorem MethodProperty.apply_agrees (p : MethodProperty) :
    Change.AgreesWith (p.apply (s.withStrictMembers true))
      (p.apply (s.withStrictMembers false)) := by
  intro d
  rw [MethodProperty.apply, MethodProperty.apply]
  have hhierarchy (b : Bool) : (s.withStrictMembers b).hierarchy = s.hierarchy := rfl
  rw [hhierarchy, hhierarchy]
  split
  · exact s.unknownMember_agrees _ d
  · refine Agree.refl fun f hf ↦ ?_
    split at hf
    · obtain rfl := Option.some.inj hf
      nofun
    · dsimp only at hf
      split at hf <;> cases hf

namespace LayerDocument

variable (layer : LayerDocument)

theorem applyMethods_agrees :
    Change.AgreesWith (layer.applyMethods (s.withStrictMembers true))
      (layer.applyMethods (s.withStrictMembers false)) := by
  refine (Change.AgreesWith.each fun n ↦ s.withMethod_agrees _ _ _).andThen ?_
  refine (Change.AgreesWith.each fun o ↦ o.apply_agrees s).andThen ?_
  exact (Change.agrees_of _).andThen (Change.AgreesWith.each fun o ↦ s.withMethod_agrees _ _ _)

/-- **Strict and lenient layers agree**, on every description. -/
theorem apply_agrees (layerClass : String) :
    Change.AgreesWith (layer.apply (s.withStrictMembers true) layerClass)
      (layer.apply (s.withStrictMembers false) layerClass) := by
  refine (Change.agrees_of _).andThen ?_
  refine Change.AgreesWith.andThen ?_ ?_
  · refine (Change.agrees_of _).andThen ?_
    exact (Change.AgreesWith.each fun p ↦ p.apply_agrees s).andThen (Change.agrees_of _)
  · refine Change.AgreesWith.andThen ?_ (layer.applyMethods_agrees s)
    exact Change.AgreesWith.each fun n ↦ n.apply_agrees s

end LayerDocument

end ComponentCatalog
