import ComponentCatalog.Proofs.ClassModel.WalkFailure
import ComponentCatalog.Proofs.Composition.Strictness
import ComponentCatalog.Proofs.Resolver.Request
import ComponentCatalog.Proofs.Resolver.Resolution

/-!
# Strict and lenient resolvers

Layers agree in strict and lenient settings (`LayerDocument.apply_agrees`), and so do whole
requests: a strict resolver refuses an unknown member, or it replies as the lenient one does, and
**the lenient one never refuses** (`reply_agrees`).

What comes around the layers is the same for both, so all there is to show of it is that it never
fails with an unknown member on its own.  Reading a layer is a matter of its rules, and processors
have their failures wrapped.
-/

set_option autoImplicit false

namespace ComponentCatalog

universe u

/-- The failure is something else than an unknown member. -/
def Failure.KnowsMembers (f : Failure) : Prop := f.kind ≠ .unknownMember

/-! ## Outcomes that agree -/

section Agree

variable {α β : Type} {x y : Except Failure α}

theorem Agree.failsIn (h : Agree failureOf? x y) : FailsIn Failure.KnowsMembers y :=
  fun f hf ↦ h.not_refused f (failureOf?_eq_some_iff.mpr hf)

theorem agree_self (h : FailsIn Failure.KnowsMembers x) : Agree failureOf? x x :=
  Agree.refl fun f hf ↦ h f (failureOf?_eq_some_iff.mp hf)

theorem Agree.bind {f g : α → Except Failure β} (h : Agree failureOf? x y)
    (hfg : ∀ a, Agree failureOf? (f a) (g a)) : Agree failureOf? (x >>= f) (y >>= g) := by
  constructor
  · rcases h.refused_or_eq with ⟨failure, hx, hkind⟩ | rfl
    · rw [failureOf?_eq_some_iff.mp hx]
      exact .inl ⟨failure, rfl, hkind⟩
    · cases x with
      | error failure => exact .inr rfl
      | ok a => exact (hfg a).refused_or_eq
  · cases y with
    | error failure => exact h.not_refused
    | ok a => exact (hfg a).not_refused

theorem Agree.mapError {change : Failure → Failure} (hchange : ∀ f, (change f).kind = f.kind)
    (h : Agree failureOf? x y) : Agree failureOf? (x.mapError change) (y.mapError change) := by
  constructor
  · rcases h.refused_or_eq with ⟨failure, hx, hkind⟩ | rfl
    · rw [failureOf?_eq_some_iff.mp hx]
      exact .inl ⟨change failure, rfl, (hchange failure).trans hkind⟩
    · exact .inr rfl
  · have hlenient : FailsIn Failure.KnowsMembers (y.mapError change) :=
      h.failsIn.mapError fun f hf heq ↦ hf ((hchange f).symm.trans heq)
    exact (agree_self hlenient).not_refused

theorem Agree.foldlM {f g : β → α → Except Failure β} {l : List α}
    (h : ∀ b a, Agree failureOf? (f b a) (g b a)) (b : β) :
    Agree failureOf? (l.foldlM f b) (l.foldlM g b) := by
  induction l generalizing b with
  | nil => exact agree_self (failsIn_pure b)
  | cons a l ih =>
    rw [List.foldlM_cons, List.foldlM_cons]
    exact (h b a).bind ih

theorem Change.AgreesWith.result {strict lenient : Change} (h : strict.AgreesWith lenient)
    (d : Description) : Agree failureOf? (strict.result d) (lenient.result d) := by
  obtain ⟨hstrict, hlenient⟩ := h d
  constructor
  · rw [Change.result, Change.result]
    rcases hstrict with ⟨f, hf, hkind⟩ | heq
    · rcases hs : strict d with ⟨e, _ | g⟩ <;> rw [hs] at hf <;> cases hf
      exact .inl ⟨f, rfl, hkind⟩
    · rw [heq]
      exact .inr rfl
  · rw [Change.result]
    rcases hl : lenient d with ⟨e, _ | g⟩ <;> rw [hl] at hlenient
    · rintro f ⟨⟩
    · exact hlenient

end Agree

/-! ## What is the same for both -/

/-- To look for classes is not to look for members. -/
theorem Failure.OfWalk.knowsMembers {f : Failure} (h : f.OfWalk) : f.KnowsMembers := by
  cases h with
  | missing name => nofun
  | cyclic start parent => nofun

theorem agree_walk {α : Type} {x : Except Failure α} (h : FailsIn Failure.OfWalk x) :
    Agree failureOf? x x :=
  agree_self (h.mono fun _ hf ↦ hf.knowsMembers)

namespace Resolver

variable {r : Resolver}

theorem complete_knowsMembers (r : Resolver) (layers : List LayerResource) (last : LayerResource)
    (d : Description) : FailsIn Failure.KnowsMembers (r.complete layers last d) := by
  refine (r.complete_fails layers last d).mono fun f hf hkind ↦ ?_
  rcases hf with h | h | h <;> exact nomatch hkind.symm.trans h

/-- A failure of a processor is one of processing, whatever the processor says. -/
theorem runProcessor_knowsMembers (d : Description) (p : Processor) :
    FailsIn Failure.KnowsMembers (runProcessor d p) := by
  have hprocess : FailsIn (fun _ ↦ True) (p.process d) := fun _ _ ↦ trivial
  refine hprocess.mapError fun failure _ ↦ ?_
  split
  · rename_i hkind
    rw [Failure.KnowsMembers, hkind]
    nofun
  · nofun

theorem parameterLayers_fails (r : Resolver) (host : Description) (p : ParameterPlace) :
    FailsIn Failure.OfWalk (r.parameterLayers host p) :=
  (r.classPath.hierarchy_fails host.classDecl).bind fun _ _ ↦ failsIn_pure _

/-! ## Resolvers that agree -/

/-- The same resolver, strict or lenient. -/
def withStrictMembers (r : Resolver) (strictMembers : Bool) : Resolver :=
  { r with options := { r.options with strictMembers } }

theorem applyLayer_agrees (hr : ∀ rule ∈ r.rules, rule.OnlyFailsToLoad) (s : Setting)
    (d : Description) (layer : LayerResource) :
    Agree failureOf? (r.applyLayer (s.withStrictMembers true) d layer)
      (r.applyLayer (s.withStrictMembers false) d layer) := by
  have hread : FailsIn Failure.KnowsMembers (Rules.readLayer r.rules layer.resource) :=
    (Rules.readLayer_failsToLoad hr layer.resource).mono fun f hf hunknown ↦
      nomatch hf.symm.trans hunknown
  refine (agree_self hread).bind fun document ↦ ?_
  refine ((document.apply_agrees s layer.className).result d).bind fun d ↦ ?_
  exact agree_self (failsIn_pure _)

theorem resolve_agrees (hr : ∀ rule ∈ r.rules, rule.OnlyFailsToLoad) (key : Key) (c : ClassDecl)
    (additional : List LayerResource) :
    Agree failureOf? ((r.withStrictMembers true).resolve key c additional)
      ((r.withStrictMembers false).resolve key c additional) := by
  refine Agree.mapError (fun _ ↦ rfl) ?_
  refine (agree_walk (r.classPath.hierarchy_fails c)).bind fun hierarchy ↦ ?_
  have hlocator (b : Bool) : (r.withStrictMembers b).locator = r.locator := rfl
  rw [hlocator, hlocator]
  split
  · exact agree_self (failsIn_error.mpr nofun)
  · refine Agree.bind (Agree.foldlM (applyLayer_agrees hr (r.setting hierarchy)) _) fun d ↦ ?_
    refine (agree_self (r.complete_knowsMembers _ _ d)).bind fun d ↦ agree_self ?_
    exact FailsIn.foldlM (fun p _ d ↦ runProcessor_knowsMembers d p) d

section Requests

variable (hr : ∀ rule ∈ r.rules, rule.OnlyFailsToLoad)

include hr

theorem freshClass_agrees (c : ClassDecl) :
    Agree failureOf? ((r.withStrictMembers true).freshClass c)
      ((r.withStrictMembers false).freshClass c) :=
  (agree_walk (r.classPath.normalize_fails c)).bind fun c ↦
    resolve_agrees hr _ c []

theorem freshInContext_agrees (key : Key) :
    Agree failureOf? ((r.withStrictMembers true).freshInContext key)
      ((r.withStrictMembers false).freshInContext key) := by
  refine (agree_walk (r.classPath.load_fails key.componentClass)).bind fun c ↦ ?_
  have hlayer (b : Bool) : (r.withStrictMembers b).contextLayer? key = r.contextLayer? key := rfl
  rw [hlayer, hlayer]
  split
  · exact resolve_agrees hr key c _
  · exact freshClass_agrees hr c

theorem fresh_agrees (q : Request) :
    Agree failureOf? ((r.withStrictMembers true).fresh q)
      ((r.withStrictMembers false).fresh q) := by
  cases q with
  | component className =>
    exact (agree_walk (r.classPath.load_fails className)).bind fun c ↦
      freshClass_agrees hr c
  | factory f => exact freshInContext_agrees hr f.key
  | exposed host method returnClass => exact freshInContext_agrees hr _
  | parameter host place =>
    refine (agree_walk (r.classPath.load_fails place.typeName)).bind fun c ↦ ?_
    refine (agree_walk (r.parameterLayers_fails host place)).bind fun layers ↦ ?_
    cases layers with
    | nil => exact freshClass_agrees hr c
    | cons layer layers => exact resolve_agrees hr _ c _

end Requests

/-- The same resolver for the component metadata format. -/
def withStandardRules (r : Resolver) : Resolver := { r with rules := standardRules }

/-- **Strict and lenient agree.**  A strict resolver without a cache refuses an unknown member or
replies as the lenient one does, in any sessions, and the lenient one never refuses.  So it is with
single layers, where also what a failure leaves of the description is the same. -/
theorem reply_agrees :
    (∀ (r : Resolver) (q : Request) (σ σ' : Session),
      Agree failureOf? ((r.withStandardRules.uncached.withStrictMembers true).reply q σ)
        ((r.withStandardRules.uncached.withStrictMembers false).reply q σ')) ∧
      ∀ (s : Setting) (layer : LayerDocument) (layerClass : String) (d : Description),
        Agree Prod.snd (layer.apply (s.withStrictMembers true) layerClass d)
          (layer.apply (s.withStrictMembers false) layerClass d) := by
  refine ⟨fun r q σ σ' ↦ ?_, fun s layer layerClass ↦ layer.apply_agrees s layerClass⟩
  rw [reply_of_not_cacheEnabled rfl, reply_of_not_cacheEnabled rfl]
  exact fresh_agrees (r := r.withStandardRules.uncached) standardRules_onlyFailToLoad q

end Resolver

end ComponentCatalog
