import ComponentCatalog.Proofs.Resolver.Parameter
import ComponentCatalog.Proofs.Resolver.Store

/-!
# What a request comes down to

Every request comes down to one resolution: of a class, under a key, with the layers of a context
(`Resolver.fresh_eq`).  Without such layers the class is the one that stands for the class asked
for, and is itself the key.

With them **nothing stands for the class asked for**, not even for an anonymous one
(`Resolver.class_in_context`).  So the metadata of a context decides not only what is said of a
component, but also which class it is said of.
-/

set_option autoImplicit false

namespace ComponentCatalog

/-! ## Targets -/

/-- The key of what is asked for. -/
def Request.key : Request → Key
  | component className => .pure className
  | factory f => f.key
  | exposed host method returnClass => .contextual returnClass host.key method
  | parameter host place => place.key host.key

/-- A resolution that can be made: the class, the key and the layers of the context. -/
structure Target where
  key : Key
  classDecl : ClassDecl
  context : List LayerResource := []

namespace Resolver

variable {r : Resolver} {q : Request} {key : Key} {c : ClassDecl} {d : Description}

/-- The layers of the context of a request. -/
def contextLayers (r : Resolver) : Request → Except Failure (List LayerResource)
  | .component _ => .ok []
  | .factory f => .ok (r.contextLayer? f.key).toList
  | .exposed host method returnClass =>
    .ok (r.contextLayer? (.contextual returnClass host.key method)).toList
  | .parameter host place => r.parameterLayers host place

/-- The resolution of a class without a context. -/
def classTarget (r : Resolver) (c : ClassDecl) : Except Failure Target := do
  let named ← r.classPath.normalize c
  pure { key := .pure named.name, classDecl := named }

/-- What a request comes down to, unless a class for it is missing. -/
def target (r : Resolver) (q : Request) : Except Failure Target := do
  let c ← r.classPath.load q.className
  match ← r.contextLayers q with
  | [] => r.classTarget c
  | layers => pure { key := q.key, classDecl := c, context := layers }

/-- When there is a resolution to make. -/
theorem target_eq_ok_iff {t : Target} :
    r.target q = .ok t ↔ ∃ c layers, r.classPath.load q.className = .ok c ∧
      r.contextLayers q = .ok layers ∧
      (layers = [] ∧ r.classTarget c = .ok t ∨ layers ≠ [] ∧ t = ⟨q.key, c, layers⟩) := by
  simp only [target, bind_eq_ok_iff]
  constructor
  · rintro ⟨c, hload, layers, hlayers, h⟩
    refine ⟨c, layers, hload, hlayers, ?_⟩
    cases layers with
    | nil => exact .inl ⟨rfl, h⟩
    | cons layer layers => exact .inr ⟨List.cons_ne_nil _ _, (Except.ok.inj h).symm⟩
  · rintro ⟨c, layers, hload, hlayers, ⟨rfl, h⟩ | ⟨hne, rfl⟩⟩
    · exact ⟨c, hload, [], hlayers, h⟩
    · refine ⟨c, hload, layers, hlayers, ?_⟩
      cases layers with
      | nil => exact absurd rfl hne
      | cons layer layers => rfl

theorem classTarget_eq_ok_iff {t : Target} :
    r.classTarget c = .ok t ↔
      ∃ named, r.classPath.normalize c = .ok named ∧ t = ⟨.pure named.name, named, []⟩ := by
  simp only [classTarget, bind_eq_ok_iff]
  refine exists_congr fun named ↦ and_congr_right fun _ ↦ ?_
  exact ⟨fun h ↦ (Except.ok.inj h).symm, fun h ↦ congrArg Except.ok h.symm⟩

/-- Makes the resolution. -/
def resolveTarget (r : Resolver) (t : Target) : Except Failure Description :=
  r.resolve t.key t.classDecl t.context

theorem classTarget_bind (c : ClassDecl) :
    r.classTarget c >>= r.resolveTarget = r.freshClass c := by
  rw [classTarget, bind_assoc, freshClass]
  rfl

theorem target_bind (q : Request) :
    r.target q >>= r.resolveTarget = r.classPath.load q.className >>= fun c ↦
      r.contextLayers q >>= fun layers ↦
        match layers with
        | [] => r.freshClass c
        | layers => r.resolve q.key c layers := by
  rw [target, bind_assoc]
  refine congrArg (r.classPath.load q.className >>= ·) (funext fun c ↦ ?_)
  rw [bind_assoc]
  refine congrArg (r.contextLayers q >>= ·) (funext fun layers ↦ ?_)
  cases layers with
  | nil => exact classTarget_bind c
  | cons layer layers => rfl

theorem freshInContext_eq (key : Key) :
    r.freshInContext key = r.classPath.load key.componentClass >>= fun c ↦
      match (r.contextLayer? key).toList with
      | [] => r.freshClass c
      | layers => r.resolve key c layers := by
  rw [freshInContext]
  cases r.contextLayer? key with
  | none => rfl
  | some layer => rfl

/-- **A request comes down to a resolution.** -/
theorem fresh_eq (q : Request) : r.fresh q = r.target q >>= r.resolveTarget := by
  rw [target_bind]
  cases q with
  | component className => rfl
  | factory f => exact freshInContext_eq f.key
  | exposed host method returnClass => exact freshInContext_eq _
  | parameter host place =>
    show (r.classPath.load place.typeName >>= fun c ↦ _) = _
    refine congrArg (r.classPath.load place.typeName >>= ·) (funext fun c ↦ ?_)
    refine congrArg (r.parameterLayers host place >>= ·) (funext fun layers ↦ ?_)
    cases layers with
    | nil => rfl
    | cons layer layers => rfl

theorem reply_after_eq_ok_iff (hkeys : r.KeepsKeys) (steps : List SessionStep) :
    r.reply q (r.after steps) = .ok d ↔ ∃ t, r.target q = .ok t ∧ r.resolveTarget t = .ok d := by
  rw [reply_after_eq_fresh hkeys, fresh_eq, bind_eq_ok_iff]

end Resolver

/-! ## The class that stands for a class -/

namespace ClassPath

variable {cp : ClassPath} {start : String} {seen followed : List String} {c : ClassDecl}
  {supers hierarchy : List ClassDecl}

/-- On the way up from a class there is one that stands for it. -/
theorem exists_namedFrom (h : cp.superclassesFrom start seen c = .ok supers)
    (hfollowed : followed ⊆ seen) :
    ∃ named, cp.namedFrom start followed c = .ok named ∧
      (named = c ∧ c.StandsForItself ∨ named ∈ supers ∧ ¬c.StandsForItself) := by
  fun_induction cp.superclassesFrom start seen c generalizing supers followed with
  | case1 seen c hroot =>
    exact ⟨c, namedFrom_of_superclass?_eq_none hroot, .inl ⟨rfl, .inr hroot⟩⟩
  | case2 => cases h
  | case3 => cases h
  | case4 seen c parent hparent hnew next hnext rest hrest ih =>
    obtain rfl := Except.ok.inj h
    cases hnameless : c.isNameless with
    | false => exact ⟨c, namedFrom_of_not_isNameless hnameless, .inl ⟨rfl, .inl hnameless⟩⟩
    | true =>
      obtain ⟨named, hnamed, hplace⟩ := ih hrest (List.cons_subset_cons parent hfollowed)
      have hmem : named ∈ next :: rest := by
        rcases hplace with ⟨rfl, -⟩ | ⟨hmem, -⟩
        · exact List.mem_cons_self
        · exact List.mem_cons_of_mem _ hmem
      have hother : ¬c.StandsForItself := by
        rintro (h | h)
        · rw [hnameless] at h
          cases h
        · rw [hparent] at h
          cases h
      refine ⟨named, ?_, .inr ⟨hmem, hother⟩⟩
      rw [namedFrom_of_isNameless hnameless hparent (mt (@hfollowed parent) hnew) hnext]
      exact hnamed
  | case5 => cases h

/-- A class with a hierarchy has one that stands for it, and it is another one, of another name,
unless the class stands for itself. -/
theorem exists_normalize (h : cp.hierarchy c = .ok hierarchy) :
    ∃ named, cp.normalize c = .ok named ∧ (named.name = c.name ↔ c.StandsForItself) := by
  obtain ⟨supers, rfl, hothers⟩ := exists_cons_of_hierarchy h
  rw [ClassPath.hierarchy] at h
  cases hsupers : cp.superclassesFrom c.name [c.name] c with
  | error failure =>
    rw [hsupers] at h
    cases h
  | ok rest =>
    rw [hsupers] at h
    obtain rfl := (List.cons.inj (Except.ok.inj h)).2
    obtain ⟨named, hnamed, hplace⟩ := exists_namedFrom hsupers (List.nil_subset _)
    refine ⟨named, hnamed, ?_⟩
    rcases hplace with ⟨rfl, hself⟩ | ⟨hmem, hother⟩
    · exact ⟨fun _ ↦ hself, fun _ ↦ rfl⟩
    · exact ⟨fun heq ↦ absurd heq (hothers named hmem), fun hself ↦ absurd hself hother⟩

end ClassPath

namespace Resolver

variable {r : Resolver} {q : Request} {key : Key} {c : ClassDecl} {d e : Description}

/-! ## The class of a description -/

/-- No processor changes the class of a description. -/
def KeepsClasses (r : Resolver) : Prop :=
  ∀ p ∈ r.processors, ∀ d e, p.process d = .ok e → e.classDecl = d.classDecl

theorem keepsClasses_of_processors_eq_nil (h : r.processors = []) : r.KeepsClasses := by
  intro p hp
  rw [h] at hp
  cases hp

theorem classDecl_of_applyLayer {s : Setting} {layer : LayerResource}
    (h : r.applyLayer s d layer = .ok e) : e.classDecl = d.classDecl := by
  obtain ⟨document, -, h⟩ := bind_eq_ok_iff.mp h
  exact (ClassLayer.addTo_effect (l := ⟨document, layer.className⟩) h).classDecl

theorem classDecl_of_complete {layers : List LayerResource} {last : LayerResource}
    (h : r.complete layers last d = .ok e) : e.classDecl = d.classDecl := by
  obtain ⟨toolkit, icon?, -, -, -, rfl⟩ := complete_eq_ok_iff.mp h
  rfl

/-- A resolution makes a description of the class it is given. -/
theorem classDecl_of_resolve {additional : List LayerResource} (hr : r.KeepsClasses)
    (h : r.resolve key c additional = .ok d) : d.classDecl = c :=
  eq_of_resolve classDecl_of_applyLayer classDecl_of_complete hr h

theorem hierarchy_of_resolve {additional : List LayerResource}
    (h : r.resolve key c additional = .ok d) :
    ∃ hierarchy, r.classPath.hierarchy c = .ok hierarchy := by
  obtain ⟨hierarchy, hhierarchy, -⟩ := bind_eq_ok_iff.mp (mapError_eq_ok_iff.mp h)
  exact ⟨hierarchy, hhierarchy⟩

theorem className_of_contextKey? (h : q.contextKey? = some key) :
    q.className = key.componentClass ∧ r.contextLayers q = .ok (r.contextLayer? key).toList := by
  cases q with
  | component name => cases h
  | factory f =>
    obtain rfl := Option.some.inj h
    exact ⟨rfl, rfl⟩
  | exposed host method returnClass =>
    obtain rfl := Option.some.inj h
    exact ⟨rfl, rfl⟩
  | parameter host place => cases h

/-- **The class of a description in a context** is the very class that was asked for if there is
metadata for the context, and otherwise the one that stands for it.  So the two agree but for a
class that does not stand for itself. -/
theorem class_in_context (hkeys : r.KeepsKeys) (hclasses : r.KeepsClasses)
    (hq : q.contextKey? = some key) (steps : List SessionStep)
    (h : r.reply q (r.after steps) = .ok d) :
    ∃ c named, r.classPath.load key.componentClass = .ok c ∧
      r.classPath.normalize c = .ok named ∧
      d.componentClass = (if (r.contextLayer? key).isSome then c.name else named.name) ∧
      (d.componentClass = named.name ↔ r.contextLayer? key = none ∨ c.StandsForItself) := by
  obtain ⟨hname, hlayers⟩ := className_of_contextKey? (r := r) hq
  obtain ⟨t, htarget, hresolve⟩ := (reply_after_eq_ok_iff hkeys steps).mp h
  have hclass : d.componentClass = t.classDecl.name :=
    congrArg ClassDecl.name (classDecl_of_resolve hclasses hresolve)
  obtain ⟨c, layers, hload, hfound, htarget⟩ := target_eq_ok_iff.mp htarget
  obtain rfl := Except.ok.inj (hlayers.symm.trans hfound)
  rw [hname] at hload
  refine ⟨c, ?_⟩
  rcases htarget with ⟨hnil, htarget⟩ | ⟨hne, rfl⟩
  · obtain ⟨named, hnamed, rfl⟩ := classTarget_eq_ok_iff.mp htarget
    have hnone : r.contextLayer? key = none := Option.toList_eq_nil_iff.mp hnil
    refine ⟨named, hload, hnamed, ?_, ?_⟩
    · rw [hnone]
      exact hclass
    · exact ⟨fun _ ↦ .inl hnone, fun _ ↦ hclass⟩
  · have hsome : r.contextLayer? key ≠ none := mt Option.toList_eq_nil_iff.mpr hne
    obtain ⟨hierarchy, hhierarchy⟩ := hierarchy_of_resolve hresolve
    obtain ⟨named, hnamed, hself⟩ := ClassPath.exists_normalize hhierarchy
    refine ⟨named, hload, hnamed, ?_, ?_⟩
    · rw [if_pos (Option.isSome_iff_ne_none.mpr hsome)]
      exact hclass
    · rw [hclass, eq_comm, hself]
      exact ⟨.inr, fun h ↦ h.resolve_left hsome⟩

/-! An anonymous panel that extends the slider, and what a factory creates as such a panel.  There
is metadata for the context of the factory. -/

def sliderPanel : ClassDecl := { name := "a.Panel$1", superclass? := some "a.Slider" }

def sliderPanelResolver : Resolver :=
  { sliderResolver with classPath := sliderResolver.classPath.add sliderPanel }

def sliderPanelFactory : FactoryMethod := { sliderFactory with returnClass := "a.Panel$1" }

theorem exists_target_sliderPanel : ∃ t d,
    sliderPanelResolver.target (.factory sliderPanelFactory) = .ok t ∧
      t.classDecl = sliderPanel ∧ sliderPanelResolver.resolveTarget t = .ok d := by
  let own : ClassLayer :=
    ⟨{ modelClass? := some "a.SliderInfo", toolkit? := some "swing" }, "a.Slider"⟩
  let created : ClassLayer := ⟨{ order? := some "1" }, "a.Panel$1"⟩
  let layer : LayerResource := { createdLayer with className := "a.Panel$1" }
  have hhierarchy : sliderPanelResolver.classPath.hierarchy sliderPanel =
      .ok [sliderPanel, sliderClass] :=
    ClassPath.hierarchy_eq_pair rfl (by decide) rfl rfl
  have hown : sliderPanelResolver.locator.layersOf [sliderPanel, sliderClass] = [sliderLayer] := by
    decide +kernel
  have hslider : sliderPanelResolver.readLayer sliderLayer = .ok own :=
    readLayer_of_document readLayer_slider
  have hcreated : sliderPanelResolver.readLayer layer = .ok created :=
    readLayer_of_document readLayer_created
  have hread : (sliderPanelResolver.allLayers [sliderPanel, sliderClass] [layer]).mapM
      sliderPanelResolver.readLayer = .ok [own, created] := by
    rw [allLayers, hown, List.singleton_append, List.mapM_cons, List.mapM_cons, hslider, hcreated]
    rfl
  have hends : sliderPanelResolver.classPath.SearchEnds sliderPanelResolver.locator "a.Panel$1" :=
    ClassPath.searchEnds_of_parents_eq_singleton rfl (ClassPath.searchEnds_of_parents_eq_nil rfl)
  obtain ⟨d, hd⟩ : ∃ d, sliderPanelResolver.resolve sliderPanelFactory.key sliderPanel [layer] =
      .ok d :=
    exists_resolve_eq_ok rfl hhierarchy (hown ▸ List.cons_ne_nil _ _) hread rfl rfl hends rfl
  have hlayer : sliderPanelResolver.contextLayer? sliderPanelFactory.key = some layer := by
    decide +kernel
  refine ⟨⟨sliderPanelFactory.key, sliderPanel, [layer]⟩, d, ?_, rfl, hd⟩
  refine target_eq_ok_iff.mpr ⟨sliderPanel, [layer], rfl, ?_, .inr ⟨List.cons_ne_nil _ _, rfl⟩⟩
  exact congrArg (fun layer? ↦ Except.ok layer?.toList) hlayer

theorem class_in_context_panel : ∃ d,
    sliderPanelResolver.reply (.factory sliderPanelFactory) (sliderPanelResolver.after []) = .ok d ∧
      d.componentClass = "a.Panel$1" := by
  have hkeys : sliderPanelResolver.KeepsKeys := keepsKeys_of_processors_eq_nil rfl
  have hclasses : sliderPanelResolver.KeepsClasses := keepsClasses_of_processors_eq_nil rfl
  obtain ⟨t, d, htarget, -, hd⟩ := exists_target_sliderPanel
  have hreply := (reply_after_eq_ok_iff hkeys []).mpr ⟨t, htarget, hd⟩
  have hlayer : (sliderPanelResolver.contextLayer? sliderPanelFactory.key).isSome := by
    decide +kernel
  obtain ⟨c, named, hload, -, hclass, -⟩ := class_in_context hkeys hclasses rfl [] hreply
  rw [if_pos hlayer] at hclass
  exact ⟨d, hreply, hclass.trans (ClassPath.name_of_load hload)⟩

/-- The slider stands for the panel, but the description is not of the slider. -/
theorem class_in_context_differs : ∃ d,
    sliderPanelResolver.reply (.factory sliderPanelFactory) (sliderPanelResolver.after []) = .ok d ∧
      sliderPanelResolver.classPath.normalize sliderPanel = .ok sliderClass ∧
      d.componentClass ≠ sliderClass.name := by
  have hkeys : sliderPanelResolver.KeepsKeys := keepsKeys_of_processors_eq_nil rfl
  have hclasses : sliderPanelResolver.KeepsClasses := keepsClasses_of_processors_eq_nil rfl
  obtain ⟨t, d, htarget, hpanel, hd⟩ := exists_target_sliderPanel
  have hnamed : sliderPanelResolver.classPath.normalize sliderPanel = .ok sliderClass := by
    rw [ClassPath.normalize, ClassPath.namedFrom_of_isNameless (by decide) rfl (by decide) rfl]
    exact ClassPath.namedFrom_of_not_isNameless (by decide)
  have hclass : d.classDecl = sliderPanel := (classDecl_of_resolve hclasses hd).trans hpanel
  refine ⟨d, (reply_after_eq_ok_iff hkeys []).mpr ⟨t, htarget, hd⟩, hnamed, ?_⟩
  rw [Description.componentClass, hclass]
  decide

end Resolver

end ComponentCatalog
