import ComponentCatalog.Proofs.ClassModel.SuperclassChain
import ComponentCatalog.Proofs.Resolver.Caching
import ComponentCatalog.Proofs.Resolver.Resolution

/-!
# Parameters of a host's methods

For a parameter, every class of the host's hierarchy can have metadata.  It is applied after the
layers of the parameter's type, so two hierarchies have a say, and **the host comes first, from its
own class upwards** (`reply_parameter`): then the type itself and then its superclasses.

Both hierarchies are given class first and applied root first.  The value that counts is the one
applied last, so it is the first one on the way up (`lastSome_filterMap_reverse`).  What is not
inherited is kept from the longest run of layers of the type at the end (`ClassLayer.ownRun`).
These are the type's own layer and all of the host, because layers of the host are layers of the
type and no superclass has the type's name (`ClassPath.exists_cons_of_hierarchy`).
-/

set_option autoImplicit false

namespace ComponentCatalog

universe u

open ClassLayer Locator

namespace Resolver

variable {r : Resolver} {host : Description} {place : ParameterPlace} {c : ClassDecl}
  {hosts supers : List ClassDecl} {layers : List LayerResource} {documents : List ClassLayer}

/-! ## Documents -/

/-- What a metadata resource says, if it can be read. -/
def document? (r : Resolver) (layer : LayerResource) : Option LayerDocument :=
  (Rules.readLayer r.rules layer.resource).toOption

/-- What the metadata of a class says. -/
def ownDocument? (r : Resolver) (k : ClassDecl) : Option LayerDocument :=
  (r.locator.findMetadata k).bind r.document?

/-- What a class says of a parameter, as one of the classes of its host. -/
def hostDocument? (r : Resolver) (place : ParameterPlace) (k : ClassDecl) :
    Option LayerDocument :=
  (r.contextLayer? (place.key (.pure k.name))).bind r.document?

/-- What is declared by the first class of a hierarchy that declares it. -/
def nearest {α : Type u} (document? : ClassDecl → Option LayerDocument)
    (f : LayerDocument → Option α) (hierarchy : List ClassDecl) : Option α :=
  hierarchy.findSome? fun k ↦ (document? k).bind f

/-- What the two hierarchies declare of what is inherited: the nearest class of the host, or else
the type of the parameter, or else its nearest superclass. -/
def declared {α : Type} (r : Resolver) (place : ParameterPlace) (hosts : List ClassDecl)
    (c : ClassDecl) (supers : List ClassDecl) (f : LayerDocument → Option α) : Option α :=
  (nearest (r.hostDocument? place) f hosts).or
    (((r.ownDocument? c).bind f).or (nearest r.ownDocument? f supers))

theorem nearest_cons {α : Type u} (document? : ClassDecl → Option LayerDocument)
    (f : LayerDocument → Option α) :
    nearest document? f (c :: supers) = ((document? c).bind f).or (nearest document? f supers) := by
  rw [nearest, List.findSome?_cons, nearest]
  cases (document? c).bind f with
  | none => rfl
  | some a => rfl

theorem document?_eq_some {layer : LayerResource} {document : LayerDocument}
    (h : Rules.readLayer r.rules layer.resource = .ok document) :
    r.document? layer = some document :=
  congrArg Except.toOption h

theorem toOption_readLayer (r : Resolver) (layer : LayerResource) :
    (r.readLayer layer).toOption =
      (r.document? layer).map fun document ↦ ⟨document, layer.className⟩ := by
  rw [readLayer, document?]
  cases Rules.readLayer r.rules layer.resource with
  | error failure => rfl
  | ok document => rfl

theorem map_document_of_mapM (h : layers.mapM r.readLayer = .ok documents) :
    documents.map (·.document) = layers.filterMap r.document? := by
  rw [(eq_filterMap_of_mapM h).2, List.map_filterMap]
  refine congrArg (fun f ↦ layers.filterMap f) (funext fun layer ↦ ?_)
  rw [toOption_readLayer, Option.map_map]
  exact congrFun Option.map_id _

theorem exists_layer_of_mapM (h : layers.mapM r.readLayer = .ok documents) {l : ClassLayer}
    (hl : l ∈ documents) : ∃ layer ∈ layers, layer.className = l.layerClass := by
  rw [(eq_filterMap_of_mapM h).2] at hl
  obtain ⟨layer, hlayer, hread⟩ := List.mem_filterMap.mp hl
  rw [toOption_readLayer] at hread
  obtain ⟨document, -, rfl⟩ := Option.map_eq_some_iff.mp hread
  exact ⟨layer, hlayer, rfl⟩

theorem isSome_document?_of_mapM (h : layers.mapM r.readLayer = .ok documents)
    {layer : LayerResource} (hlayer : layer ∈ layers) : (r.document? layer).isSome := by
  obtain ⟨l, hl⟩ := (eq_filterMap_of_mapM h).1 layer hlayer
  have hsome := congrArg Except.toOption hl
  rw [toOption_readLayer] at hsome
  obtain ⟨document, hdocument, -⟩ := Option.map_eq_some_iff.mp hsome
  rw [hdocument]
  rfl

/-! ## Layers -/

/-- The layers of the classes of a host for a parameter, from the root down. -/
def hostLayers (r : Resolver) (place : ParameterPlace) (hosts : List ClassDecl) :
    List LayerResource :=
  hosts.reverse.filterMap fun k ↦ r.contextLayer? (place.key (.pure k.name))

theorem parameterLayers_eq (h : r.classPath.hierarchy host.classDecl = .ok hosts) :
    r.parameterLayers host place = .ok (r.hostLayers place hosts) := by
  rw [parameterLayers, h]
  rfl

theorem hostLayers_eq_nil_iff : r.hostLayers place hosts = [] ↔
    ∀ k ∈ hosts, r.contextLayer? (place.key (.pure k.name)) = none := by
  rw [hostLayers, List.filterMap_eq_nil_iff]
  simp only [List.mem_reverse]

theorem className_of_mem_hostLayers {layer : LayerResource} (h : layer ∈ r.hostLayers place hosts) :
    layer.className = place.typeName := by
  obtain ⟨k, -, hk⟩ := List.mem_filterMap.mp h
  obtain ⟨resource, -, rfl⟩ := Option.map_eq_some_iff.mp hk
  rfl

theorem filterMap_document?_hostLayers : (r.hostLayers place hosts).filterMap r.document? =
    hosts.reverse.filterMap (r.hostDocument? place) :=
  List.filterMap_filterMap

theorem filterMap_document?_layersOf {hierarchy : List ClassDecl} :
    (r.locator.layersOf hierarchy).filterMap r.document? =
      hierarchy.reverse.filterMap r.ownDocument? := by
  rw [Locator.layersOf, ← List.filterMap_reverse, List.filterMap_filterMap]
  rfl

theorem filterMap_document?_toList :
    (r.locator.findMetadata c).toList.filterMap r.document? = (r.ownDocument? c).toList := by
  rw [ownDocument?]
  cases r.locator.findMetadata c with
  | none => rfl
  | some layer =>
    rw [Option.toList_some, List.filterMap_cons, Option.bind_some]
    cases r.document? layer with
    | none => rfl
    | some document => rfl

theorem allLayers_cons (r : Resolver) (c : ClassDecl) (supers : List ClassDecl)
    (additional : List LayerResource) : r.allLayers (c :: supers) additional =
      r.locator.layersOf supers ++ ((r.locator.findMetadata c).toList ++ additional) := by
  rw [allLayers, layersOf_cons, List.append_assoc]

/-- **What is not inherited** comes from the class and from layers that are added for it. -/
theorem map_document_ownRun_of_className {additional : List LayerResource}
    (hread : (r.allLayers (c :: supers) additional).mapM r.readLayer = .ok documents)
    (hadditional : ∀ layer ∈ additional, layer.className = c.name)
    (hsupers : ∀ k ∈ supers, k.name ≠ c.name) :
    (ownRun c.name documents).map (·.document) =
      (r.ownDocument? c).toList ++ additional.filterMap r.document? := by
  rw [allLayers_cons, List.mapM_append] at hread
  obtain ⟨inherited, hinherited, hread⟩ := bind_eq_ok_iff.mp hread
  obtain ⟨own, hown, hread⟩ := bind_eq_ok_iff.mp hread
  obtain rfl := Except.ok.inj hread
  -- The layers of superclasses come first, and all that come after them are layers of the class.
  have hothers : ∀ l ∈ inherited, l.layerClass ≠ c.name := by
    intro l hl
    obtain ⟨layer, hlayer, hclass⟩ := exists_layer_of_mapM hinherited hl
    obtain ⟨k, hk, hfound⟩ := List.mem_filterMap.mp (List.mem_reverse.mp hlayer)
    rw [← hclass, className_of_findMetadata hfound]
    exact hsupers k hk
  have hall : ∀ l ∈ own, l.layerClass = c.name := by
    intro l hl
    obtain ⟨layer, hlayer, hclass⟩ := exists_layer_of_mapM hown hl
    rw [← hclass]
    obtain hlayer | hlayer := List.mem_append.mp hlayer
    · exact className_of_findMetadata (Option.mem_toList.mp hlayer)
    · exact hadditional layer hlayer
  rw [ownRun_append hothers hall, map_document_of_mapM hown, List.filterMap_append,
    filterMap_document?_toList]

section Documents

variable (hread : (r.allLayers (c :: supers) (r.hostLayers place hosts)).mapM r.readLayer =
  .ok documents)

include hread

/-- **What is inherited** comes from the host, or else from the type or its superclasses. -/
theorem lastSome_eq_declared {α : Type} (f : LayerDocument → Option α) :
    lastSome (fun l ↦ f l.document) documents = r.declared place hosts c supers f := by
  rw [declared, ← lastSome_map, map_document_of_mapM hread, allLayers, List.filterMap_append,
    filterMap_document?_layersOf, filterMap_document?_hostLayers, lastSome_append,
    lastSome_filterMap_reverse, lastSome_filterMap_reverse, ← nearest_cons]
  rfl

/-- Of a parameter, what is not inherited comes from its type and the host. -/
theorem map_document_ownRun (hname : place.typeName = c.name)
    (hsupers : ∀ k ∈ supers, k.name ≠ c.name) :
    (ownRun c.name documents).map (·.document) =
      (r.ownDocument? c).toList ++ hosts.reverse.filterMap (r.hostDocument? place) := by
  have hlayers : ∀ layer ∈ r.hostLayers place hosts, layer.className = c.name := fun layer hlayer ↦
    (className_of_mem_hostLayers hlayer).trans hname
  rw [map_document_ownRun_of_className hread hlayers hsupers, filterMap_document?_hostLayers]

end Documents

/-! ## Descriptions -/

/-- Where a description of a parameter of type `c` has from what it says.  All metadata of the two
hierarchies was read. -/
structure ParameterPrecedence (r : Resolver) (host : Description) (place : ParameterPlace)
    (hosts : List ClassDecl) (c : ClassDecl) (supers : List ClassDecl) (d : Description) :
    Prop where
  read : ∀ layer ∈ r.allLayers (c :: supers) (r.hostLayers place hosts), (r.document? layer).isSome
  modelClass : d.modelClass? = r.declared place hosts c supers (·.modelClass?)
  order : d.order? = r.declared place hosts c supers (·.order?)
  parameters : ∀ name,
    d.parameters.get? name = r.declared place hosts c supers (·.parameters.get? name)
  description : d.description? = (nearest (r.hostDocument? place) (·.description?) hosts).or
    ((r.ownDocument? c).bind (·.description?))
  creations : d.creations =
    ((r.ownDocument? c).toList ++ hosts.reverse.filterMap (r.hostDocument? place)).flatMap
      fun document ↦ document.creations.map (·.withIcon (r.setting (c :: supers)) c.name)
  key : d.key = place.key host.key
  cached : d.cached = false

/-- A host with metadata for a parameter is answered by a resolution in its context. -/
theorem reply_parameter_of_ne_nil (hhosts : r.classPath.hierarchy host.classDecl = .ok hosts)
    (hlayers : r.hostLayers place hosts ≠ []) (σ : Session) :
    r.reply (.parameter host place) σ = r.classPath.load place.typeName >>= fun c ↦
      r.resolve (place.key host.key) c (r.hostLayers place hosts) := by
  have hanswers : Answers (fun _ ↦ True) (r.serve (.parameter host place))
      (r.classPath.load place.typeName >>= fun c ↦
        r.resolve (place.key host.key) c (r.hostLayers place hosts)) := by
    refine Answers.lift_bind fun c _ ↦ ?_
    rw [parameterLayers_eq hhosts]
    obtain ⟨layer, layers, hcons⟩ := List.exists_cons_of_ne_nil hlayers
    rw [hcons]
    exact answers_make (fun _ _ _ ↦ trivial) _ c _
  exact (hanswers σ trivial).1

theorem parameterPrecedence_of_resolve (hprocessors : r.processors = [])
    (hload : r.classPath.load place.typeName = .ok c) {d : Description}
    (h : r.resolve (place.key host.key) c (r.hostLayers place hosts) = .ok d) :
    ∃ supers, r.classPath.hierarchy c = .ok (c :: supers) ∧
      r.ParameterPrecedence host place hosts c supers d := by
  obtain ⟨hierarchy, documents, last, m, toolkit, icon?, hhierarchy, -, -, hread, hcompose, -, -, -,
    rfl⟩ := (resolve_eq_ok_iff hprocessors).mp h
  obtain ⟨supers, rfl, hsupers⟩ := ClassPath.exists_cons_of_hierarchy hhierarchy
  have hname : place.typeName = c.name := (ClassPath.name_of_load hload).symm
  have hsummary := Description.summary_of_compose hcompose
  have hown := map_document_ownRun hread hname hsupers
  have hkey : (r.completed last toolkit icon? m).key = place.key host.key :=
    key_of_resolve (keepsKeys_of_processors_eq_nil hprocessors) h
  have hcontextual : m.key.isPure = false := congrArg Key.isPure hkey
  exact ⟨supers, hhierarchy, {
    read := fun layer ↦ isSome_document?_of_mapM hread
    modelClass := hsummary.modelClass.trans (lastSome_eq_declared hread _)
    order := hsummary.order.trans (lastSome_eq_declared hread _)
    parameters := fun name ↦
      (hsummary.parameters name).trans (lastSome_eq_declared hread (·.parameters.get? name))
    description := by
      refine hsummary.description.trans ?_
      rw [← lastSome_map (fun document : LayerDocument ↦ document.description?)
        (fun l : ClassLayer ↦ l.document), hown, lastSome_append, lastSome_filterMap_reverse,
        lastSome_toList]
      rfl
    creations := by
      refine hsummary.creations.trans ?_
      rw [← hown, List.flatMap_map]
    key := hkey
    cached := by
      rw [completed, hcontextual]
      rfl }⟩

/-- **Precedence over two hierarchies.**  If a class of the host has metadata for a parameter, a
description of the parameter says what the nearest class of the host declares, or else what the
type of the parameter and its superclasses declare; but a superclass gives no description and no
creations.  Without such metadata the parameter is described as its type is. -/
theorem reply_parameter (host : Description) (place : ParameterPlace)
    (hprocessors : r.processors = [])
    (hhosts : r.classPath.hierarchy host.classDecl = .ok hosts) :
    ((∃ k ∈ hosts, r.contextLayer? (place.key (.pure k.name)) ≠ none) →
      ∀ σ d, r.reply (.parameter host place) σ = .ok d →
        ∃ c supers, r.classPath.load place.typeName = .ok c ∧
          r.classPath.hierarchy c = .ok (c :: supers) ∧
          r.ParameterPrecedence host place hosts c supers d) ∧
      ((∀ k ∈ hosts, r.contextLayer? (place.key (.pure k.name)) = none) →
        r.serve (.parameter host place) = r.describe place.typeName) := by
  refine ⟨fun hsome σ d h ↦ ?_, fun hnone ↦ ?_⟩
  · have hlayers : r.hostLayers place hosts ≠ [] := by
      obtain ⟨k, hk, hfound⟩ := hsome
      exact fun hnil ↦ hfound (hostLayers_eq_nil_iff.mp hnil k hk)
    rw [reply_parameter_of_ne_nil hhosts hlayers] at h
    obtain ⟨c, hload, h⟩ := bind_eq_ok_iff.mp h
    obtain ⟨supers, hhierarchy, hprecedence⟩ := parameterPrecedence_of_resolve hprocessors hload h
    exact ⟨c, supers, hload, hhierarchy, hprecedence⟩
  · show r.describeParameter host place = r.describe place.typeName
    rw [describeParameter, parameterLayers_eq hhosts, hostLayers_eq_nil_iff.mpr hnone]
    rfl

/-! A dialog that is a window, and the field that a method of either is given.  The window and the
dialog have metadata for it: the order comes from the dialog, and the model class from a superclass
of the field. -/

def dialogClass : ClassDecl := { name := "a.Dialog", superclass? := some "a.Window" }

def fieldClass : ClassDecl := { name := "a.Field", superclass? := some "a.Widget" }

def fieldPlace : ParameterPlace :=
  { method := "setField(a.Field)", index := 0, typeName := "a.Field" }

def metadataOf (className path text : String) : LayerResource :=
  { className
    resource :=
      { path, bundle? := none, toolkit? := none, location := .memory (Xml.asciiBytes text) } }

def inheritedLayer : LayerResource :=
  metadataOf "a.Widget" "a/Widget.wbp-component.xml"
    "<component><toolkit id='swing'/><model class='a.WidgetInfo'/></component>"

def windowLayer : LayerResource :=
  metadataOf "a.Field" "a/Window.setField_a.Field_.0.wbp-component.xml"
    "<component><order>2</order></component>"

def dialogLayer : LayerResource :=
  metadataOf "a.Field" "a/Dialog.setField_a.Field_.0.wbp-component.xml"
    "<component><order>1</order></component>"

def dialogResolver : Resolver where
  classPath := ClassPath.root.addAll
    [dialogClass, { name := "a.Window" }, fieldClass, { name := "a.Widget" }]
  locator :=
    { find? path := [inheritedLayer, windowLayer, dialogLayer].findSome? fun layer ↦
        if layer.resource.path = path then some layer.resource else none
      hasEntry _ _ := false }
  rules := StandardRules.headRules

theorem reply_parameter_dialog :
    ∃ d, dialogResolver.reply
        (.parameter (.ofClass (.pure "a.Dialog") dialogClass) fieldPlace) {} = .ok d ∧
      d.order? = some "1" ∧ d.modelClass? = some "a.WidgetInfo" ∧
      d.key = .contextual "a.Field" (.pure "a.Dialog") "setField_a.Field_.0" ∧
      d.cached = false := by
  let window : ClassDecl := { name := "a.Window" }
  let widget : ClassDecl := { name := "a.Widget" }
  let inherited : LayerDocument := { toolkit? := some "swing", modelClass? := some "a.WidgetInfo" }
  have hhosts : dialogResolver.classPath.hierarchy dialogClass = .ok [dialogClass, window] :=
    ClassPath.hierarchy_eq_pair rfl (by decide) rfl rfl
  have hhierarchy : dialogResolver.classPath.hierarchy fieldClass = .ok [fieldClass, widget] :=
    ClassPath.hierarchy_eq_pair rfl (by decide) rfl rfl
  have hload : dialogResolver.classPath.load "a.Field" = .ok fieldClass := rfl
  have hlayers : dialogResolver.hostLayers fieldPlace [dialogClass, window] =
      [windowLayer, dialogLayer] := by decide +kernel
  have hown : dialogResolver.locator.layersOf [fieldClass, widget] = [inheritedLayer] := by
    decide +kernel
  have hroot : Xml.read (Xml.asciiBytes
        "<component><toolkit id='swing'/><model class='a.WidgetInfo'/></component>") =
      some { name := "component", children := [
        { name := "toolkit", attributes := .ofList [("id", "swing")] },
        { name := "model", attributes := .ofList [("class", "a.WidgetInfo")] }] } :=
    Xml.read_of_readVerbatim? (by decide +kernel)
  have hwindowRoot : Xml.read (Xml.asciiBytes "<component><order>2</order></component>") =
      some { name := "component", children := [{ name := "order", text := "2" }] } :=
    Xml.read_of_readVerbatim? (by decide +kernel)
  have hdialogRoot : Xml.read (Xml.asciiBytes "<component><order>1</order></component>") =
      some { name := "component", children := [{ name := "order", text := "1" }] } :=
    Xml.read_of_readVerbatim? (by decide +kernel)
  have hinherited : Rules.readLayer dialogResolver.rules inheritedLayer.resource = .ok inherited :=
    Rules.readLayer_eq_ok rfl hroot rfl
  have hwindow : Rules.readLayer dialogResolver.rules windowLayer.resource =
      .ok { order? := some "2" } :=
    Rules.readLayer_eq_ok rfl hwindowRoot rfl
  have hdialog : Rules.readLayer dialogResolver.rules dialogLayer.resource =
      .ok { order? := some "1" } :=
    Rules.readLayer_eq_ok rfl hdialogRoot rfl
  have hread : (dialogResolver.allLayers [fieldClass, widget] [windowLayer, dialogLayer]).mapM
      dialogResolver.readLayer = .ok [⟨inherited, "a.Widget"⟩, ⟨{ order? := some "2" }, "a.Field"⟩,
        ⟨{ order? := some "1" }, "a.Field"⟩] := by
    rw [allLayers, hown, List.singleton_append, List.mapM_cons, List.mapM_cons, List.mapM_cons,
      readLayer_of_document hinherited, readLayer_of_document hwindow,
      readLayer_of_document hdialog]
    rfl
  have hends : dialogResolver.classPath.SearchEnds dialogResolver.locator fieldClass.name :=
    ClassPath.searchEnds_of_parents_eq_singleton rfl (ClassPath.searchEnds_of_parents_eq_nil rfl)
  obtain ⟨d, hd⟩ : ∃ d, dialogResolver.resolve (fieldPlace.key (.pure "a.Dialog")) fieldClass
      [windowLayer, dialogLayer] = .ok d :=
    exists_resolve_eq_ok rfl hhierarchy (hown ▸ List.cons_ne_nil _ _) hread rfl rfl hends rfl
  have hreply : dialogResolver.reply
      (.parameter (.ofClass (.pure "a.Dialog") dialogClass) fieldPlace) {} = .ok d := by
    rw [reply_parameter_of_ne_nil hhosts (hlayers ▸ List.cons_ne_nil _ _), hlayers]
    exact hd
  have hcontext : dialogResolver.contextLayer? (fieldPlace.key (.pure dialogClass.name)) =
      some dialogLayer := by decide +kernel
  obtain ⟨c, supers, hc, hsupers, hprecedence⟩ :=
    (reply_parameter (.ofClass (.pure "a.Dialog") dialogClass) fieldPlace rfl hhosts).1
      ⟨dialogClass, .head _, hcontext ▸ Option.some_ne_none _⟩ {} d hreply
  obtain rfl := Except.ok.inj (hload.symm.trans hc)
  obtain rfl := (List.cons.inj (Except.ok.inj (hhierarchy.symm.trans hsupers))).2
  have hdialogDocument : dialogResolver.hostDocument? fieldPlace dialogClass =
      some { order? := some "1" } := by
    rw [hostDocument?, hcontext, Option.bind_some, document?_eq_some hdialog]
  have hwindowDocument : dialogResolver.hostDocument? fieldPlace window =
      some { order? := some "2" } := by
    have hcontext : dialogResolver.contextLayer? (fieldPlace.key (.pure window.name)) =
        some windowLayer := by decide +kernel
    rw [hostDocument?, hcontext, Option.bind_some, document?_eq_some hwindow]
  have hwidgetDocument : dialogResolver.ownDocument? widget = some inherited := by
    have hfound : dialogResolver.locator.findMetadata widget = some inheritedLayer := by
      decide +kernel
    rw [ownDocument?, hfound, Option.bind_some, document?_eq_some hinherited]
  have hfieldDocument : dialogResolver.ownDocument? fieldClass = none := by
    have hfound : dialogResolver.locator.findMetadata fieldClass = none := by decide +kernel
    rw [ownDocument?, hfound]
    rfl
  refine ⟨d, hreply, ?_, ?_, hprecedence.key, hprecedence.cached⟩
  · rw [hprecedence.order, declared, nearest_cons, hdialogDocument]
    rfl
  · rw [hprecedence.modelClass, declared, nearest_cons, nearest_cons, nearest_cons,
      hdialogDocument, hwindowDocument, hfieldDocument, hwidgetDocument]
    rfl

end Resolver

end ComponentCatalog
