import ComponentCatalog.Proofs.Composition.Parts
import ComponentCatalog.Proofs.Resolver.Caching
import ComponentCatalog.Proofs.Resolver.Resolution

/-!
# Descriptions in a context

What a factory creates, and what a host exposes, is described by the layers of its class and one
more.  **This context layer changes only what it declares** (`reply_in_context`): compared with the
description of the class, a field of which the context layer says nothing is the same, and lists
only grow at the end.

Two resolutions are compared here, under two keys and with two lists of layers.  The layers that
they share do not see the key (`Description.compose_put_key`), so before the context layer the two
descriptions differ in nothing else.  Of the context layer we know what it does to the fields of a
description (`ClassLayer.Effect`) and which parts it keeps if it is silent; and completing either
description does the same to both, field by field.
-/

set_option autoImplicit false

namespace ComponentCatalog

open ClassLayer Description

/-- The key that a request asks for in a context: that of what a factory creates or a host
exposes. -/
def Request.contextKey? : Request → Option Key
  | .component _ => none
  | .factory f => some f.key
  | .exposed host method returnClass => some (.contextual returnClass host.key method)
  | .parameter .. => none

/-- What a context layer leaves of the description `d` of a class.  Where the layer says nothing,
`e` has what `d` has. -/
structure ContextFrame (document : LayerDocument) (d e : Description) : Prop where
  classDecl : e.classDecl = d.classDecl
  modelClass : e.modelClass? = document.modelClass?.or d.modelClass?
  order : e.order? = document.order?.or d.order?
  description : e.description? = document.description?.or d.description?
  defaultMethodOrder :
    e.defaultMethodOrder? = document.methodOrders.default?.or d.defaultMethodOrder?
  parameters : ∀ name,
    e.parameters.get? name = (document.parameters.get? name).or (d.parameters.get? name)
  icon : e.icon? = d.icon?
  morphingTargets : document.morphTargets? = none → e.morphingTargets = d.morphingTargets
  table : document.SilentOnProperties → e.table = d.table
  constructors : document.constructors = [] → e.constructors = d.constructors
  methods : document.SilentOnMethods → e.methods = d.methods
  /-- The default creation of a class with a public constructor is a call of that. -/
  creationDefault :
    (document.creationDefault? = none ∨ ∃ k ∈ d.classDecl.constructors, k.visibility = .everyone) →
      e.creationDefault? = d.creationDefault?
  creations : d.creations <+: e.creations
  exposingRules : d.exposingRules <+: e.exposingRules
  cached : e.cached = false

/-! ## The default creation -/

namespace ClassDecl

theorem fewestParameters_eq_none_iff {l : List ConstructorDecl} :
    fewestParameters l = none ↔ l = [] := by
  cases l with
  | nil => exact ⟨fun _ ↦ rfl, fun _ ↦ rfl⟩
  | cons c rest =>
    rw [fewestParameters]
    cases fewestParameters rest with
    | none => exact ⟨nofun, nofun⟩
    | some best => exact ⟨nofun, nofun⟩

theorem shortestConstructor?_eq_none_iff {c : ClassDecl} :
    c.shortestConstructor? = none ↔ ∀ k ∈ c.constructors, k.visibility ≠ .everyone := by
  rw [shortestConstructor?, fewestParameters_eq_none_iff, List.filter_eq_nil_iff]
  simp only [decide_eq_true_eq, ne_eq]

end ClassDecl

/-- Metadata has a say in the default creation only of classes without a public constructor. -/
theorem Description.defaultCreation?_congr {d e : Description} (hclass : e.classDecl = d.classDecl)
    (h : e.creationDefault? = d.creationDefault? ∨
      ∃ k ∈ d.classDecl.constructors, k.visibility = .everyone) :
    e.defaultCreation? = d.defaultCreation? := by
  rw [defaultCreation?, defaultCreation?, componentClass, componentClass, hclass]
  cases hshortest : d.classDecl.shortestConstructor? with
  | some constructor => rfl
  | none =>
    obtain h | ⟨k, hk, hpublic⟩ := h
    · exact h
    · exact absurd hpublic (ClassDecl.shortestConstructor?_eq_none_iff.mp hshortest k hk)

namespace Resolver

variable {r : Resolver} {s : Setting} {key : Key} {c : ClassDecl} {hierarchy : List ClassDecl}
  {layers additional : List LayerResource} {layer last : LayerResource} {document : LayerDocument}
  {documents : List ClassLayer} {q : Request} {d e m n : Description}

/-! ## One more layer -/

/-- **The frame of a context layer.**  With it and without it, layers that left `m` under another
key are completed, with the one icon that the class has. -/
theorem contextFrame_of_addTo {l : ClassLayer} (hclass : l.layerClass = m.componentClass)
    (hkey : key.isPure = false) (h : l.addTo s (Part.key.put m key) = .ok n) (r : Resolver)
    (last last' : LayerResource) (toolkit toolkit' : Toolkit) (icon? : Option Icon) :
    ContextFrame l.document (r.completed last toolkit icon? m)
      (r.completed last' toolkit' icon? n) := by
  have heffect := addTo_effect h
  have hkeeps : ∀ p : Part, p ≠ .key → (l.document.apply s l.layerClass).Keeps p →
      p.get n = p.get m := fun p hp hkeeps ↦
    (get_of_addTo hkeeps h).trans ((Part.untouched_put hp key).get m)
  exact {
    classDecl := heffect.classDecl
    modelClass := heffect.modelClass
    order := heffect.order
    description := heffect.description.trans (if_pos hclass)
    defaultMethodOrder := heffect.defaultMethodOrder
    parameters := fun name ↦ by
      rw [completed, completed, heffect.parameters, NameMap.get?_overlay]
      rfl
    icon := rfl
    morphingTargets := fun hsilent ↦ by
      refine heffect.morphingTargets.trans ?_
      rw [refusesTargets, loadableTargets, hsilent]
      exact List.append_nil _
    table := fun hsilent ↦ congrArg PropertyTable.join
      (hkeeps .table nofun (hsilent.apply_keeps s l.layerClass))
    constructors := fun hsilent ↦
      hkeeps .constructors nofun (LayerDocument.apply_keeps_constructors s l.layerClass hsilent)
    methods := fun hsilent ↦ hkeeps .methods nofun (hsilent.apply_keeps s l.layerClass)
    creationDefault := fun hsilent ↦ by
      refine defaultCreation?_congr heffect.classDecl (hsilent.imp_left fun hnone ↦ ?_)
      rw [heffect.creationDefault, hnone]
      exact if_pos hclass
    creations := by
      rw [completed, completed, heffect.creations]
      exact (if_pos hclass).symm ▸ List.prefix_append _ _
    exposingRules := by
      rw [completed, completed, heffect.exposingRules]
      exact List.prefix_append _ _
    cached := by
      have hn : n.key = key := heffect.key
      rw [completed, hn, hkey]
      rfl }

/-! ## Two resolutions -/

/-- Some layer of the class declares a toolkit. -/
def DeclaresToolkit (r : Resolver) (c : ClassDecl) : Prop :=
  ∃ hierarchy documents, r.classPath.hierarchy c = .ok hierarchy ∧
    (r.locator.layersOf hierarchy).mapM r.readLayer = .ok documents ∧
    ∃ l ∈ documents, l.document.toolkit? ≠ none

theorem toolkitOf?_of_toolkit?_eq_some {toolkit : Toolkit} (h : m.toolkit? = some toolkit) :
    toolkitOf? layers m = some toolkit := by
  rw [toolkitOf?, h, Option.some_or]

/-- A layer of the class that declares a toolkit counts before the bundles of all layers. -/
theorem exists_toolkit_of_mem (h : Summary s c documents m) {l : ClassLayer} (hl : l ∈ documents)
    (htoolkit : l.document.toolkit? ≠ none) : ∃ toolkit, m.toolkit? = some toolkit := by
  rw [← Option.ne_none_iff_exists', h.toolkit, ne_eq, Option.map_eq_none_iff, lastSome_eq_none_iff]
  exact fun hnone ↦ htoolkit (hnone l hl)

/-- **A context layer** changes nothing but what it declares in the description that a class has
without it. -/
theorem contextFrame_of_resolve (hprocessors : r.processors = []) (hkey : key.isPure = false)
    (hclass : layer.className = c.name)
    (hdocument : Rules.readLayer r.rules layer.resource = .ok document)
    (hd : r.resolve (.pure c.name) c [] = .ok d) (he : r.resolve key c [layer] = .ok e) :
    ContextFrame document d e ∧
      (document.toolkit? = none → r.DeclaresToolkit c → e.toolkit? = d.toolkit?) := by
  obtain ⟨hierarchy, documents, last, m, toolkit, icon?, hhierarchy, -, -, hdocuments, hcompose,
    htoolkit, hicon, -, rfl⟩ := (resolve_eq_ok_iff hprocessors).mp hd
  obtain ⟨_, _, last', n, toolkit', _, hhierarchy', -, -, hdocuments', hcompose', htoolkit', hicon',
    -, rfl⟩ := (resolve_eq_ok_iff hprocessors).mp he
  obtain rfl := Except.ok.inj (hhierarchy.symm.trans hhierarchy')
  -- Both take their icon from the class.
  rw [iconFor_of_compose hcompose] at hicon
  rw [iconFor_of_compose hcompose'] at hicon'
  obtain rfl := Except.ok.inj (hicon.symm.trans hicon')
  have hown : (r.locator.layersOf hierarchy).mapM r.readLayer = .ok documents := by
    rw [← hdocuments, allLayers, List.append_nil]
  -- The layers of the class come first and are composed to the same under either key.
  have hread : [layer].mapM r.readLayer = .ok [⟨document, layer.className⟩] := by
    rw [List.mapM_cons, readLayer_of_document hdocument]
    rfl
  rw [allLayers, List.mapM_append, hown, hread] at hdocuments'
  obtain rfl := Except.ok.inj hdocuments'
  have hshared : (ofClass key c).compose (r.setting hierarchy) documents =
      .ok (Part.key.put m key) := compose_put_key hcompose key
  rw [compose_concat, hshared, ok_bind] at hcompose'
  have hsummary := summary_of_compose hcompose
  have hname : layer.className = m.componentClass :=
    hclass.trans (congrArg ClassDecl.name hsummary.classDecl).symm
  refine ⟨contextFrame_of_addTo hname hkey hcompose' r last last' toolkit toolkit' icon?,
    fun hsilent hdeclares ↦ ?_⟩
  obtain ⟨_, _, hhierarchy', hown', l, hl, hdeclares⟩ := hdeclares
  obtain rfl := Except.ok.inj (hhierarchy.symm.trans hhierarchy')
  obtain rfl := Except.ok.inj (hown.symm.trans hown')
  obtain ⟨declared, hm⟩ := exists_toolkit_of_mem hsummary hl hdeclares
  have hn : n.toolkit? = some declared := by
    rw [(addTo_effect hcompose').toolkit, hsilent]
    exact hm
  rw [toolkitOf?_of_toolkit?_eq_some hm] at htoolkit
  rw [toolkitOf?_of_toolkit?_eq_some hn] at htoolkit'
  exact htoolkit'.symm.trans htoolkit

/-! ## Requests -/

theorem fresh_of_contextKey? (h : q.contextKey? = some key) : r.fresh q = r.freshInContext key := by
  cases q with
  | component name => cases h
  | factory f => exact congrArg r.freshInContext (Option.some.inj h)
  | exposed host method returnClass => exact congrArg r.freshInContext (Option.some.inj h)
  | parameter host place => cases h

theorem isPure_of_contextKey? (h : q.contextKey? = some key) : key.isPure = false := by
  cases q with
  | component name => cases h
  | factory f =>
    obtain rfl := Option.some.inj h
    rfl
  | exposed host method returnClass =>
    obtain rfl := Option.some.inj h
    rfl
  | parameter host place => cases h

/-- **A context layer changes only what it declares.**  A class stands for itself, and there is a
layer for it in the context of a factory or a host.  At any point of any run, what is replied in
the context is what is replied for the class, but for what the layer declares.  A toolkit that a
layer of the class declares stays as well if the context layer declares none. -/
theorem reply_in_context (hprocessors : r.processors = []) (hq : q.contextKey? = some key)
    (hload : r.classPath.load key.componentClass = .ok c)
    (hnamed : r.classPath.normalize c = .ok c) (hlayer : r.contextLayer? key = some layer)
    (hdocument : Rules.readLayer r.rules layer.resource = .ok document)
    (steps steps' : List SessionStep)
    (hd : r.reply (.component key.componentClass) (r.after steps) = .ok d)
    (he : r.reply q (r.after steps') = .ok e) :
    ContextFrame document d e ∧
      (document.toolkit? = none → r.DeclaresToolkit c → e.toolkit? = d.toolkit?) := by
  have hkeys : r.KeepsKeys := by
    intro p hp
    rw [hprocessors] at hp
    cases hp
  have hclass : layer.className = c.name := by
    obtain ⟨resource, -, rfl⟩ := Option.map_eq_some_iff.mp hlayer
    exact (ClassPath.name_of_load hload).symm
  rw [reply_after_eq_fresh hkeys, fresh_component, hload, ok_bind, hnamed, ok_bind] at hd
  rw [reply_after_eq_fresh hkeys, fresh_of_contextKey? hq, freshInContext, hload, ok_bind,
    hlayer] at he
  exact contextFrame_of_resolve hprocessors (isPure_of_contextKey? hq) hclass hdocument hd he

/-! A slider whose metadata gives a model class and a toolkit, and what a factory creates as a
slider.  In the context of the factory there is an order and nothing else, and the toolkit of the
bundle does not count. -/

def sliderClass : ClassDecl := { name := "a.Slider" }

def sliderText : Bytes :=
  Xml.asciiBytes "<component><toolkit id='swing'/><model class='a.SliderInfo'/></component>"

def sliderLayer : LayerResource :=
  { className := "a.Slider"
    resource :=
      { path := "a/Slider.wbp-component.xml"
        bundle? := none, toolkit? := none
        location := .memory sliderText } }

def sliderFactory : FactoryMethod :=
  { declaringClass := "a.Sliders", signature := "create()", returnClass := "a.Slider" }

def createdText : Bytes := Xml.asciiBytes "<component><order>1</order></component>"

def createdLayer : LayerResource :=
  { className := "a.Slider"
    resource :=
      { path := "a/Sliders.create__.wbp-component.xml"
        bundle? := some "swt", toolkit? := some ⟨"swt"⟩
        location := .memory createdText } }

def sliderResolver : Resolver where
  classPath := ClassPath.root.add sliderClass
  locator :=
    { find? path := ([sliderLayer, createdLayer].find? (·.resource.path == path)).map (·.resource)
      hasEntry _ _ := false }
  rules := StandardRules.headRules

theorem readLayer_slider : Rules.readLayer StandardRules.headRules sliderLayer.resource =
    .ok { modelClass? := some "a.SliderInfo", toolkit? := some "swing" } := by
  have hroot : Xml.read sliderText =
      some { name := "component", children := [
        { name := "toolkit", attributes := .ofList [("id", "swing")] },
        { name := "model", attributes := .ofList [("class", "a.SliderInfo")] }] } :=
    Xml.read_of_readVerbatim? (by decide +kernel)
  exact Rules.readLayer_eq_ok rfl hroot rfl

theorem readLayer_created : Rules.readLayer StandardRules.headRules createdLayer.resource =
    .ok { order? := some "1" } := by
  have hroot : Xml.read createdText =
      some { name := "component", children := [{ name := "order", text := "1" }] } :=
    Xml.read_of_readVerbatim? (by decide +kernel)
  exact Rules.readLayer_eq_ok rfl hroot rfl

theorem reply_in_context_slider :
    ∃ d e, sliderResolver.reply (.component "a.Slider") (sliderResolver.after []) = .ok d ∧
      sliderResolver.reply (.factory sliderFactory) (sliderResolver.after [.invalidate]) = .ok e ∧
      e.modelClass? = d.modelClass? ∧ e.toolkit? = d.toolkit? ∧ e.order? = some "1" := by
  let own : ClassLayer :=
    ⟨{ modelClass? := some "a.SliderInfo", toolkit? := some "swing" }, "a.Slider"⟩
  let created : ClassLayer := ⟨{ order? := some "1" }, "a.Slider"⟩
  have hkeys : sliderResolver.KeepsKeys := fun p hp ↦ absurd hp List.not_mem_nil
  have hload : sliderResolver.classPath.load "a.Slider" = .ok sliderClass := rfl
  have hnamed : sliderResolver.classPath.normalize sliderClass = .ok sliderClass :=
    ClassPath.namedFrom_of_not_isNameless (by decide)
  have hhierarchy : sliderResolver.classPath.hierarchy sliderClass = .ok [sliderClass] := by
    rw [ClassPath.hierarchy, ClassPath.superclassesFrom]
    rfl
  have hlayers : sliderResolver.locator.layersOf [sliderClass] = [sliderLayer] := by decide +kernel
  have hlayer : sliderResolver.contextLayer? sliderFactory.key = some createdLayer := by
    decide +kernel
  have hslider : sliderResolver.readLayer sliderLayer = .ok own :=
    readLayer_of_document readLayer_slider
  have hcreated : sliderResolver.readLayer createdLayer = .ok created :=
    readLayer_of_document readLayer_created
  have hown : sliderResolver.locator.layersOf [sliderClass] ≠ [] :=
    hlayers ▸ List.cons_ne_nil _ _
  have hreadOwn : (sliderResolver.locator.layersOf [sliderClass]).mapM sliderResolver.readLayer =
      .ok [own] := by
    rw [hlayers, List.mapM_cons, hslider]
    rfl
  have hread : (sliderResolver.allLayers [sliderClass] []).mapM sliderResolver.readLayer =
      .ok [own] := by
    rw [allLayers, List.append_nil, hreadOwn]
  have hread' : (sliderResolver.allLayers [sliderClass] [createdLayer]).mapM
      sliderResolver.readLayer = .ok [own, created] := by
    rw [allLayers, hlayers, List.singleton_append, List.mapM_cons, List.mapM_cons, hslider,
      hcreated]
    rfl
  have hends : sliderResolver.classPath.SearchEnds sliderResolver.locator "a.Slider" :=
    ClassPath.searchEnds_of_parents_eq_nil rfl
  obtain ⟨d, hd⟩ : ∃ d, sliderResolver.resolve (.pure "a.Slider") sliderClass [] = .ok d :=
    exists_resolve_eq_ok rfl hhierarchy hown hread rfl rfl hends rfl
  obtain ⟨e, he⟩ : ∃ e,
      sliderResolver.resolve sliderFactory.key sliderClass [createdLayer] = .ok e :=
    exists_resolve_eq_ok rfl hhierarchy hown hread' rfl rfl hends rfl
  have hd : sliderResolver.reply (.component "a.Slider") (sliderResolver.after []) = .ok d := by
    rw [reply_after_eq_fresh hkeys, fresh_component, hload, ok_bind, hnamed, ok_bind]
    exact hd
  have he : sliderResolver.reply (.factory sliderFactory) (sliderResolver.after [.invalidate]) =
      .ok e := by
    rw [reply_after_eq_fresh hkeys, fresh_of_contextKey? rfl, freshInContext, hlayer]
    exact he
  obtain ⟨hframe, htoolkit⟩ := reply_in_context (q := .factory sliderFactory) rfl rfl hload hnamed
    hlayer readLayer_created [] [.invalidate] hd he
  have hdeclares : sliderResolver.DeclaresToolkit sliderClass :=
    ⟨[sliderClass], [own], hhierarchy, hreadOwn, own, .head _, Option.some_ne_none _⟩
  exact ⟨d, e, hd, he, hframe.modelClass, htoolkit rfl hdeclares, hframe.order⟩

end Resolver

end ComponentCatalog
