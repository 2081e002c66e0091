import ComponentCatalog.Proofs.Resolver.Strictness
import ComponentCatalog.Proofs.Resolver.Target

/-!
# Where failures come from

A request that fails has one `Cause`: a class is missing, there is no layer, a layer cannot be read
or applied, a description cannot be completed, or a processor fails.  `Resolver.FailsBy` says for
each of them how far the request came before, and **the failure tells its cause**
(`Resolver.reply_attributed`): it names a class, the resource of a layer that cannot be read, and
whatever a processor said.

Two steps lead there.  A cache holds no failures, so a request that fails in a session fails afresh
(`Resolver.fresh_of_reply`).  And a fresh failure is read off from the resolution that the request
comes down to, one action after the other (`Resolver.resolveTarget_eq_error_iff`).
-/

set_option autoImplicit false

namespace ComponentCatalog

open Locator

/-! ## Causes -/

/-- What a processor's failure is reported as. -/
def Processor.report (p : Processor) (g : Failure) : Failure :=
  if g.kind = .processor then g
  else (Failure.processor ("processor " ++ p.name ++ " failed")).causedBy g

/-- Why a request fails, with the failure as it first comes up. -/
inductive Cause where
  /-- A class is missing, or superclasses come back to a class. -/
  | walk (g : Failure)
  | noLayer (className : String)
  | reading (layer : LayerResource) (g : Failure)
  | applying (layer : LayerResource) (g : Failure)
  | completing (g : Failure)
  | processing (p : Processor) (g : Failure)

/-- The failure of a resolution, before it has to name a class. -/
def Cause.failure : Cause → Failure
  | walk g => g
  | noLayer className => .noDescriptions className
  | reading _ g => g
  | applying _ g => g
  | completing g => g
  | processing p g => p.report g

namespace Failure

theorem className?_orClass (g : Failure) (name : String) :
    (g.orClass name).className? = some (g.className?.getD name) := by
  rw [orClass]
  cases g.className? with
  | none => rfl
  | some other => rfl

theorem Named.orClass_eq {g : Failure} (h : g.Named) (name : String) : g.orClass name = g := by
  obtain ⟨other, hother⟩ := Option.isSome_iff_exists.mp h
  rw [orClass, hother, Option.some_or, ← hother]

end Failure

/-- A layer that cannot be read is a load error that tells the resource. -/
theorem Rules.readLayer_tells {rules : List Rule} (h : ∀ rule ∈ rules, rule.OnlyFailsToLoad)
    (resource : Resource) :
    FailsIn (fun f ↦ f.kind = .loadError ∧ f.resource? = some resource.describe)
      (readLayer rules resource) := by
  intro f hf
  refine ⟨readLayer_failsToLoad h resource f hf, ?_⟩
  rw [readLayer] at hf
  split at hf
  · obtain rfl := Except.error.inj hf
    rfl
  · split at hf
    · obtain rfl := Except.error.inj hf
      rfl
    · obtain ⟨g, -, rfl⟩ := mapError_eq_error_iff.mp hf
      rfl

namespace Resolver

variable {r : Resolver} {t : Target} {q : Request} {cause : Cause} {f : Failure}

/-- Applies layers to the description of the target's class. -/
def applyLayers (r : Resolver) (t : Target) (hierarchy : List ClassDecl)
    (layers : List LayerResource) : Except Failure Description :=
  layers.foldlM (r.applyLayer (r.setting hierarchy)) (.ofClass t.key t.classDecl)

/-- A class of the hierarchy has a layer, and these are all the layers to apply. -/
structure HasLayers (r : Resolver) (t : Target) (hierarchy : List ClassDecl)
    (layers : List LayerResource) : Prop where
  hierarchy_eq : r.classPath.hierarchy t.classDecl = .ok hierarchy
  own_ne_nil : r.locator.layersOf hierarchy ≠ []
  all_eq : r.allLayers hierarchy t.context = layers

/-- How far a resolution comes before it fails. -/
inductive ResolutionFails (r : Resolver) (t : Target) : Cause → Prop
  | hierarchy {g : Failure} (h : r.classPath.hierarchy t.classDecl = .error g) :
      ResolutionFails r t (.walk g)
  | noLayer {hierarchy : List ClassDecl} (h : r.classPath.hierarchy t.classDecl = .ok hierarchy)
      (hown : r.locator.layersOf hierarchy = []) : ResolutionFails r t (.noLayer t.classDecl.name)
  | reading {hierarchy : List ClassDecl} {before after : List LayerResource}
      {layer : LayerResource} {m : Description} {g : Failure}
      (h : r.HasLayers t hierarchy (before ++ layer :: after))
      (hbefore : r.applyLayers t hierarchy before = .ok m)
      (hread : Rules.readLayer r.rules layer.resource = .error g) :
      ResolutionFails r t (.reading layer g)
  | applying {hierarchy : List ClassDecl} {before after : List LayerResource}
      {layer : LayerResource} {m : Description} {document : LayerDocument} {g : Failure}
      (h : r.HasLayers t hierarchy (before ++ layer :: after))
      (hbefore : r.applyLayers t hierarchy before = .ok m)
      (hread : Rules.readLayer r.rules layer.resource = .ok document)
      (happly : (document.apply (r.setting hierarchy) layer.className).result m = .error g) :
      ResolutionFails r t (.applying layer g)
  | completing {hierarchy : List ClassDecl} {layers : List LayerResource} {last : LayerResource}
      {m : Description} {g : Failure} (h : r.HasLayers t hierarchy layers)
      (hlast : layers.getLast? = some last) (hlayers : r.applyLayers t hierarchy layers = .ok m)
      (hcomplete : r.complete layers last m = .error g) : ResolutionFails r t (.completing g)
  | processing {hierarchy : List ClassDecl} {layers : List LayerResource} {last : LayerResource}
      {m d e : Description} {before after : List Processor} {p : Processor} {g : Failure}
      (h : r.HasLayers t hierarchy layers) (hlast : layers.getLast? = some last)
      (hlayers : r.applyLayers t hierarchy layers = .ok m)
      (hcomplete : r.complete layers last m = .ok d)
      (hprocessors : r.processors = before ++ p :: after)
      (hbefore : before.foldlM runProcessor d = .ok e) (hprocess : p.process e = .error g) :
      ResolutionFails r t (.processing p g)

/-- How far a request comes before it fails. -/
inductive FailsBy (r : Resolver) (q : Request) : Cause → Prop
  | target {g : Failure} (h : r.target q = .error g) : FailsBy r q (.walk g)
  | resolution {t : Target} {cause : Cause} (h : r.target q = .ok t)
      (hfails : r.ResolutionFails t cause) : FailsBy r q cause

/-! ## From a failure to its cause and back -/

theorem runProcessor_eq_error_iff {d : Description} {p : Processor} :
    runProcessor d p = .error f ↔ ∃ g, p.process d = .error g ∧ p.report g = f :=
  mapError_eq_error_iff

/-- Applying a layer fails in reading it, or else in what it says. -/
theorem applyLayer_eq_error_iff {s : Setting} {d : Description} {layer : LayerResource} :
    r.applyLayer s d layer = .error f ↔
      Rules.readLayer r.rules layer.resource = .error f ∨
        ∃ document, Rules.readLayer r.rules layer.resource = .ok document ∧
          (document.apply s layer.className).result d = .error f := by
  rw [applyLayer, bind_eq_error_iff]
  refine or_congr_right (exists_congr fun document ↦ and_congr_right fun _ ↦ ?_)
  rw [bind_eq_error_iff]
  refine or_iff_left ?_
  rintro ⟨d, -, h⟩
  cases h

theorem exists_cause_of_composed (h : r.composed t.key t.classDecl t.context = .error f) :
    ∃ cause, r.ResolutionFails t cause ∧ cause.failure = f := by
  cases hhierarchy : r.classPath.hierarchy t.classDecl with
  | error g =>
    rw [composed, hhierarchy] at h
    exact ⟨_, .hierarchy hhierarchy, Except.error.inj h⟩
  | ok hierarchy =>
    by_cases hown : r.locator.layersOf hierarchy = []
    · rw [composed_of_layersOf_eq_nil hhierarchy hown] at h
      exact ⟨_, .noLayer hhierarchy hown, Except.error.inj h⟩
    · obtain ⟨last, hlast, hcomposed⟩ := exists_composed_eq hhierarchy hown t.key t.context
      rw [hcomposed] at h
      rcases bind_eq_error_iff.mp h with h | ⟨m, hm, h⟩
      · obtain ⟨before, layer, after, m, hall, hbefore, hlayer⟩ := foldlM_eq_error_iff.mp h
        have hlayers : r.HasLayers t hierarchy (before ++ layer :: after) :=
          ⟨hhierarchy, hown, hall⟩
        rcases applyLayer_eq_error_iff.mp hlayer with hread | ⟨document, hread, happly⟩
        · exact ⟨_, .reading hlayers hbefore hread, rfl⟩
        · exact ⟨_, .applying hlayers hbefore hread happly, rfl⟩
      · have hlayers : r.HasLayers t hierarchy _ := ⟨hhierarchy, hown, rfl⟩
        rcases bind_eq_error_iff.mp h with hcomplete | ⟨d, hcomplete, h⟩
        · exact ⟨_, .completing hlayers hlast hm hcomplete, rfl⟩
        · obtain ⟨before, p, after, e, hprocessors, hbefore, hp⟩ := foldlM_eq_error_iff.mp h
          obtain ⟨g, hprocess, hreport⟩ := runProcessor_eq_error_iff.mp hp
          exact ⟨_, .processing hlayers hlast hm hcomplete hprocessors hbefore hprocess, hreport⟩

theorem HasLayers.exists_composed_eq {hierarchy : List ClassDecl} {layers : List LayerResource}
    (h : r.HasLayers t hierarchy layers) : ∃ last, layers.getLast? = some last ∧
      r.composed t.key t.classDecl t.context =
        r.applyLayers t hierarchy layers >>= fun d ↦ r.complete layers last d >>= fun d ↦
          r.processors.foldlM runProcessor d := by
  obtain ⟨hhierarchy, hown, rfl⟩ := h
  exact Resolver.exists_composed_eq hhierarchy hown t.key t.context

theorem composed_eq_error_of_cause (h : r.ResolutionFails t cause) :
    r.composed t.key t.classDecl t.context = .error cause.failure := by
  cases h with
  | hierarchy h =>
    rw [composed, h]
    rfl
  | noLayer h hown => exact composed_of_layersOf_eq_nil h hown _ _
  | reading h hbefore hread =>
    obtain ⟨last, -, hcomposed⟩ := h.exists_composed_eq
    rw [hcomposed]
    refine bind_eq_error_iff.mpr (.inl (foldlM_eq_error_iff.mpr ?_))
    exact ⟨_, _, _, _, rfl, hbefore, applyLayer_eq_error_iff.mpr (.inl hread)⟩
  | applying h hbefore hread happly =>
    obtain ⟨last, -, hcomposed⟩ := h.exists_composed_eq
    rw [hcomposed]
    refine bind_eq_error_iff.mpr (.inl (foldlM_eq_error_iff.mpr ?_))
    exact ⟨_, _, _, _, rfl, hbefore, applyLayer_eq_error_iff.mpr (.inr ⟨_, hread, happly⟩)⟩
  | completing h hlast hlayers hcomplete =>
    obtain ⟨last, hlast', hcomposed⟩ := h.exists_composed_eq
    obtain rfl := Option.some.inj (hlast.symm.trans hlast')
    rw [hcomposed, hlayers, ok_bind]
    exact bind_eq_error_iff.mpr (.inl hcomplete)
  | processing h hlast hlayers hcomplete hprocessors hbefore hprocess =>
    obtain ⟨last, hlast', hcomposed⟩ := h.exists_composed_eq
    obtain rfl := Option.some.inj (hlast.symm.trans hlast')
    rw [hcomposed, hlayers, ok_bind, hcomplete, ok_bind, hprocessors]
    refine foldlM_eq_error_iff.mpr ⟨_, _, _, _, rfl, hbefore, ?_⟩
    exact runProcessor_eq_error_iff.mpr ⟨_, hprocess, rfl⟩

/-- **A resolution fails by a cause**, and names its class if the cause names none. -/
theorem resolveTarget_eq_error_iff : r.resolveTarget t = .error f ↔
    ∃ cause, r.ResolutionFails t cause ∧ cause.failure.orClass t.classDecl.name = f := by
  rw [resolveTarget, resolve, mapError_eq_error_iff]
  constructor
  · rintro ⟨g, hcomposed, rfl⟩
    obtain ⟨cause, hcause, rfl⟩ := exists_cause_of_composed hcomposed
    exact ⟨cause, hcause, rfl⟩
  · rintro ⟨cause, hcause, rfl⟩
    exact ⟨cause.failure, composed_eq_error_of_cause hcause, rfl⟩

/-- A fresh request fails before there is a resolution to make, or in the resolution. -/
theorem fresh_eq_error_iff : r.fresh q = .error f ↔
    r.target q = .error f ∨ ∃ t cause, r.target q = .ok t ∧ r.ResolutionFails t cause ∧
      cause.failure.orClass t.classDecl.name = f := by
  rw [fresh_eq, bind_eq_error_iff]
  refine or_congr_right (exists_congr fun t ↦ ?_)
  rw [resolveTarget_eq_error_iff, exists_and_left]

/-! ## Failures in a session -/

/-- If the action fails in some session, then as the outcome does. -/
def FailsLike (action : InSession SharedDescription) (outcome : Except Failure Description) :
    Prop :=
  ∀ σ f, (action.run.run σ).1 = .error f → outcome = .error f

theorem FailsLike.lift_bind {α : Type} {x : Except Failure α} {f : α → InSession SharedDescription}
    {g : α → Except Failure Description} (h : ∀ a, x = .ok a → FailsLike (f a) (g a)) :
    FailsLike (liftM x >>= f) (x >>= g) := by
  cases x with
  | error failure =>
    intro σ f hf
    obtain rfl := Except.error.inj hf
    rfl
  | ok a => exact h a rfl

theorem failsLike_make (key : Key) (c : ClassDecl) (additional : List LayerResource) :
    FailsLike (r.make key c additional) (r.resolve key c additional) := by
  intro σ f hf
  rw [run_make] at hf
  cases hresolve : r.resolve key c additional with
  | error failure =>
    rw [hresolve] at hf
    obtain rfl := Except.error.inj hf
    rfl
  | ok d =>
    rw [hresolve] at hf
    cases hf

/-- A description that is kept is no failure, and to keep one does not fail. -/
theorem failsLike_describeClass (c : ClassDecl) :
    FailsLike (r.describeClass c) (r.freshClass c) := by
  refine FailsLike.lift_bind fun named _ ↦ ?_
  split
  · intro σ f hf
    rw [Session.run_lookUp_bind] at hf
    cases hget : (σ.cache.get named.name).1 with
    | some s =>
      rw [hget] at hf
      cases hf
    | none =>
      rw [hget] at hf
      dsimp only at hf
      rw [InSession.run_bind, run_make] at hf
      cases hresolve : r.resolve (.pure named.name) named [] with
      | error failure =>
        rw [hresolve] at hf
        obtain rfl := Except.error.inj hf
        rfl
      | ok d =>
        rw [hresolve] at hf
        cases hf
  · exact failsLike_make _ named []

theorem failsLike_serve (q : Request) : FailsLike (r.serve q) (r.fresh q) := by
  have hcontext (key : Key) : FailsLike (r.describeInContext key) (r.freshInContext key) := by
    refine FailsLike.lift_bind fun c _ ↦ ?_
    cases r.contextLayer? key with
    | some layer => exact failsLike_make key c [layer]
    | none => exact failsLike_describeClass c
  cases q with
  | component className => exact FailsLike.lift_bind fun c _ ↦ failsLike_describeClass c
  | factory f => exact hcontext f.key
  | exposed host method returnClass => exact hcontext _
  | parameter host place =>
    refine FailsLike.lift_bind fun c _ ↦ FailsLike.lift_bind fun layers _ ↦ ?_
    cases layers with
    | nil => exact failsLike_describeClass c
    | cons layer layers => exact failsLike_make _ c _

/-- **No failure is kept**: a request that fails in any session fails afresh in the same way. -/
theorem fresh_of_reply {σ : Session} (h : r.reply q σ = .error f) : r.fresh q = .error f := by
  rw [reply] at h
  cases hrun : ((r.serve q).run.run σ).1 with
  | error failure =>
    rw [hrun] at h
    obtain rfl := Except.error.inj h
    exact failsLike_serve q σ _ hrun
  | ok s =>
    rw [hrun] at h
    cases h

/-! ## What a failure tells -/

/-- All that goes wrong before there is a resolution to make is on the class path. -/
theorem target_fails (q : Request) : FailsIn Failure.OfWalk (r.target q) := by
  refine (r.classPath.load_fails q.className).bind fun c _ ↦ ?_
  refine FailsIn.bind ?_ fun layers _ ↦ ?_
  · cases q with
    | component className => exact failsIn_ok _
    | factory f => exact failsIn_ok _
    | exposed host method returnClass => exact failsIn_ok _
    | parameter host place => exact r.parameterLayers_fails host place
  · cases layers with
    | nil => exact (r.classPath.normalize_fails c).bind fun _ _ ↦ failsIn_pure _
    | cons layer layers => exact failsIn_pure _

/-- The layer is the first one of a request that cannot be read, from the root of the hierarchy down
and then in the context. -/
def FirstUnreadable (r : Resolver) (q : Request) (layer : LayerResource) : Prop :=
  ∃ t hierarchy before after, r.target q = .ok t ∧
    r.HasLayers t hierarchy (before ++ layer :: after) ∧
    (∀ earlier ∈ before, ∃ document, Rules.readLayer r.rules earlier.resource = .ok document) ∧
    ∃ g, Rules.readLayer r.rules layer.resource = .error g

/-- What a failure tells of its cause. -/
structure Tells (r : Resolver) (q : Request) (cause : Cause) (f : Failure) : Prop where
  named : f.Named
  /-- A class that was named when the failure came up stays. -/
  className : ∀ name, cause.failure.className? = some name → f.className? = some name
  walk : ∀ g, cause = .walk g → g.OfWalk ∧ f = g
  reading : ∀ layer g, cause = .reading layer g → f.kind = .loadError ∧
    f.resource? = some layer.resource.describe ∧ r.FirstUnreadable q layer
  processing : ∀ p g, cause = .processing p g → f.kind = .processor ∧
    (g.kind = .processor → ∃ name, f = g.orClass name) ∧
    (g.kind ≠ .processor → f.causes = g.toReport :: g.causes ∧ f.origin? = g.origin?)

theorem firstUnreadable_of_applyLayers {hierarchy : List ClassDecl}
    {before after : List LayerResource} {layer : LayerResource} {m : Description} {g : Failure}
    (htarget : r.target q = .ok t) (h : r.HasLayers t hierarchy (before ++ layer :: after))
    (hbefore : r.applyLayers t hierarchy before = .ok m)
    (hread : Rules.readLayer r.rules layer.resource = .error g) : r.FirstUnreadable q layer := by
  refine ⟨t, hierarchy, before, after, htarget, h, fun earlier hearlier ↦ ?_, g, hread⟩
  obtain ⟨documents, hdocuments, -⟩ := foldlM_applyLayer_eq_ok_iff.mp hbefore
  obtain ⟨l, hl⟩ := (eq_filterMap_of_mapM hdocuments).1 earlier hearlier
  obtain ⟨document, hdocument, -⟩ := bind_eq_ok_iff.mp hl
  exact ⟨document, hdocument⟩

/-- The failure of a resolution tells its cause. -/
theorem tells_of_resolutionFails (hrules : ∀ rule ∈ r.rules, rule.OnlyFailsToLoad)
    (htarget : r.target q = .ok t) (h : r.ResolutionFails t cause) :
    r.Tells q cause (cause.failure.orClass t.classDecl.name) where
  named := by
    rw [Failure.Named, Failure.className?_orClass]
    rfl
  className name hname := by
    rw [Failure.className?_orClass, hname]
    rfl
  walk := by
    rintro g rfl
    cases h with
    | hierarchy h =>
      have hwalk := r.classPath.hierarchy_fails t.classDecl g h
      exact ⟨hwalk, hwalk.named.orClass_eq _⟩
  reading := by
    rintro layer g rfl
    cases h with
    | reading h hbefore hread =>
      obtain ⟨hkind, hresource⟩ := Rules.readLayer_tells hrules layer.resource g hread
      exact ⟨hkind, hresource, firstUnreadable_of_applyLayers htarget h hbefore hread⟩
  processing := by
    rintro p g rfl
    rw [Cause.failure, Processor.report]
    split
    · rename_i hkind
      exact ⟨hkind, fun _ ↦ ⟨_, rfl⟩, fun hother ↦ absurd hkind hother⟩
    · rename_i hkind
      exact ⟨rfl, fun hsame ↦ absurd hsame hkind, fun _ ↦ ⟨rfl, rfl⟩⟩

/-- So does one that comes up before there is a resolution to make. -/
theorem tells_of_target (h : r.target q = .error f) : r.Tells q (.walk f) f where
  named := (target_fails q f h).named
  className _ hname := hname
  walk := by
    rintro g ⟨⟩
    exact ⟨target_fails q f h, rfl⟩
  reading := by
    intro layer g hcause
    cases hcause
  processing := by
    intro p g hcause
    cases hcause

theorem exists_failsBy (h : r.fresh q = .error f) : ∃ cause, r.FailsBy q cause := by
  rcases fresh_eq_error_iff.mp h with htarget | ⟨t, cause, htarget, hfails, -⟩
  · exact ⟨_, .target htarget⟩
  · exact ⟨cause, .resolution htarget hfails⟩

theorem tells_of_failsBy (hrules : ∀ rule ∈ r.rules, rule.OnlyFailsToLoad)
    (hfresh : r.fresh q = .error f) (h : r.FailsBy q cause) : r.Tells q cause f := by
  cases h with
  | @target g htarget =>
    have heq := hfresh.symm.trans (fresh_eq_error_iff.mpr (.inl htarget))
    obtain rfl := Except.error.inj heq
    exact tells_of_target htarget
  | @resolution t cause htarget hfails =>
    have heq := hfresh.symm.trans (fresh_eq_error_iff.mpr (.inr ⟨t, cause, htarget, hfails, rfl⟩))
    obtain rfl := Except.error.inj heq
    exact tells_of_resolutionFails hrules htarget hfails

/-- **Every failure is attributed.**  Whatever a request comes to in whatever session, a failure has
a cause and tells it. -/
theorem reply_attributed (r : Resolver) (q : Request) (σ : Session)
    (h : r.withStandardRules.reply q σ = .error f) :
    (∃ cause, r.withStandardRules.FailsBy q cause) ∧
      ∀ cause, r.withStandardRules.FailsBy q cause → r.withStandardRules.Tells q cause f := by
  have hfresh := fresh_of_reply h
  have hrules : ∀ rule ∈ r.withStandardRules.rules, rule.OnlyFailsToLoad :=
    standardRules_onlyFailToLoad
  exact ⟨exists_failsBy hfresh, fun cause ↦ tells_of_failsBy hrules hfresh⟩

/-! The slider, with metadata in a file that cannot be read. -/

def lostLayer : LayerResource :=
  { className := "a.Slider"
    resource :=
      { path := "a/Slider.wbp-component.xml"
        bundle? := none, toolkit? := none
        location := .file "/metadata/a/Slider.wbp-component.xml" none } }

def lostResolver : Resolver :=
  { sliderResolver with
    locator :=
      { find? path := if path = lostLayer.resource.path then some lostLayer.resource else none
        hasEntry _ _ := false } }

theorem reply_attributed_lost : ∃ f,
    lostResolver.withStandardRules.reply (.component "a.Slider") {} = .error f ∧ f.Named ∧
      f.kind = .loadError ∧ f.resource? = some "/metadata/a/Slider.wbp-component.xml" := by
  have hkeys : lostResolver.withStandardRules.KeepsKeys := keepsKeys_of_processors_eq_nil rfl
  have hnamed : lostResolver.withStandardRules.classPath.normalize sliderClass = .ok sliderClass :=
    ClassPath.namedFrom_of_not_isNameless (by decide)
  have htarget : lostResolver.withStandardRules.target (.component "a.Slider") =
      .ok ⟨.pure "a.Slider", sliderClass, []⟩ :=
    target_eq_ok_iff.mpr ⟨sliderClass, [], rfl, rfl,
      .inl ⟨rfl, classTarget_eq_ok_iff.mpr ⟨sliderClass, hnamed, rfl⟩⟩⟩
  have hhierarchy : lostResolver.withStandardRules.classPath.hierarchy sliderClass =
      .ok [sliderClass] :=
    ClassPath.hierarchy_eq_singleton rfl
  have hfound : lostResolver.locator.findMetadata sliderClass = some lostLayer := by
    decide +kernel
  have hown : lostResolver.locator.layersOf [sliderClass] = [lostLayer] := by
    rw [layersOf_cons, hfound]
    rfl
  have hlayers : lostResolver.withStandardRules.HasLayers ⟨.pure "a.Slider", sliderClass, []⟩
      [sliderClass] ([] ++ lostLayer :: []) :=
    ⟨hhierarchy, hown ▸ List.cons_ne_nil _ _, congrArg (· ++ []) hown⟩
  have hfails := ResolutionFails.reading hlayers rfl rfl
  have hreply : lostResolver.withStandardRules.reply (.component "a.Slider") {} = .error _ :=
    (reply_after_eq_fresh hkeys [] _).trans
      (fresh_eq_error_iff.mpr (.inr ⟨_, _, htarget, hfails, rfl⟩))
  have htells := (reply_attributed lostResolver _ _ hreply).2 _ (.resolution htarget hfails)
  obtain ⟨hkind, hresource, -⟩ := htells.reading _ _ rfl
  have hlocation : lostLayer.resource.describe = "/metadata/a/Slider.wbp-component.xml" := rfl
  rw [hlocation] at hresource
  exact ⟨_, hreply, htells.named, hkind, hresource⟩

end Resolver

end ComponentCatalog
