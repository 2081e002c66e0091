import ComponentCatalog.Configuration.Workspace
import ComponentCatalog.Proofs.Configuration.Validity
import ComponentCatalog.Proofs.Layer.Concatenation
import ComponentCatalog.Proofs.Resolver.Target

/-!
# What may be kept

The last layer of a description decides whether the description may be kept, and whether its
presentations may be: the marker for it has to be in **the very bundle that the layer was found
in** (`Configuration.kept_iff`).  Markers are looked up by the identifier of a bundle, in all
bundles.  That no other bundle is asked holds for valid configurations, no two bundles of which have
the same identifier (`Configuration.hasEntry_iff`).  A layer of a project root is in no bundle.
-/

set_option autoImplicit false

namespace ComponentCatalog

/-! ## Bundles -/

namespace BundleEntry

variable {b : BundleEntry} {files : FileTree} {path : String}

/-- The folder of the bundle has a file at a path, which may not lead upwards. -/
def Holds (b : BundleEntry) (files : FileTree) (path : String) : Prop :=
  ".." ∉ Path.segments path ∧ (files.read? (Path.join b.path path)).isSome

instance : Decidable (b.Holds files path) := inferInstanceAs (Decidable (_ ∧ _))

/-- The bundle to search. -/
def toBundle (b : BundleEntry) : Bundle :=
  { id? := some b.id, toolkit? := b.toolkit?.map Toolkit.mk, root := .folder b.path }

theorem isSome_locate_toBundle : (b.toBundle.locate files path).isSome ↔ b.Holds files path := by
  rw [Bundle.locate, Holds]
  by_cases hup : ".." ∈ Path.segments path
  · simp [hup]
  · simp [hup, toBundle]

theorem resource?_toBundle_eq_none_iff :
    b.toBundle.resource? files path = none ↔ ¬b.Holds files path := by
  rw [← isSome_locate_toBundle, Option.not_isSome_iff_eq_none, Bundle.resource?,
    Option.map_eq_none_iff]

end BundleEntry

namespace Configuration

variable {c : Configuration} {files : FileTree} {path entry : String} {resource : Resource}

/-- The bundles to search for the project's own resources. -/
def projectBundles (c : Configuration) : List Bundle :=
  c.projectRoots.map fun path ↦ { id? := none, root := .folder path }

theorem toBundles_eq (c : Configuration) :
    c.toBundles = c.bundles.map BundleEntry.toBundle ++ c.projectBundles := rfl

/-- The bundle that gives what is at a path, the first one that has it; none if a project root
gives it. -/
def bundleOf? (c : Configuration) (files : FileTree) (path : String) : Option BundleEntry :=
  c.bundles.find? fun b ↦ b.Holds files path

/-- The bundle that gives what is at a path has another file, too. -/
def HasBeside (c : Configuration) (files : FileTree) (path entry : String) : Prop :=
  ∃ b, c.bundleOf? files path = some b ∧ b.Holds files entry

theorem of_resource?_eq_some {b : Bundle} (h : b.resource? files path = some resource) :
    resource.path = path ∧ resource.bundle? = b.id? := by
  obtain ⟨location, -, rfl⟩ := Option.map_eq_some_iff.mp h
  exact ⟨rfl, rfl⟩

/-- A resource that is found is in the bundle that gives what is at its path, or in none. -/
theorem bundle?_of_find? (h : (c.locator files).find? path = some resource) :
    resource.path = path ∧ resource.bundle? = (c.bundleOf? files path).map (·.id) := by
  have hfound : c.toBundles.findSome? (fun b ↦ b.resource? files path) = some resource := h
  rw [toBundles_eq, List.findSome?_append, Option.or_eq_some_iff, List.findSome?_map] at hfound
  rcases hfound with hfound | ⟨hnone, hfound⟩
  · obtain ⟨before, b, after, hbundles, hb, hbefore⟩ := List.findSome?_eq_some_iff.mp hfound
    have hholds : b.Holds files path := by
      by_contra hnot
      cases hb.symm.trans (BundleEntry.resource?_toBundle_eq_none_iff.mpr hnot)
    have hfirst : c.bundleOf? files path = some b := by
      rw [bundleOf?, List.find?_eq_some_iff_append]
      refine ⟨decide_eq_true hholds, before, after, hbundles, fun a ha ↦ ?_⟩
      simpa using BundleEntry.resource?_toBundle_eq_none_iff.mp (hbefore a ha)
    rw [hfirst]
    exact of_resource?_eq_some hb
  · have hnowhere : c.bundleOf? files path = none := by
      rw [bundleOf?, List.find?_eq_none]
      intro b hb
      have hb := List.findSome?_eq_none_iff.mp hnone b hb
      simpa using BundleEntry.resource?_toBundle_eq_none_iff.mp hb
    obtain ⟨b, hb, hresource⟩ := List.exists_of_findSome?_eq_some hfound
    obtain ⟨root, -, rfl⟩ := List.mem_map.mp hb
    rw [hnowhere]
    exact of_resource?_eq_some hresource

/-- A file is looked up in the bundle of an identifier, and in no other. -/
theorem hasEntry_iff (hc : c.Valid) {b : BundleEntry} (hb : b ∈ c.bundles) :
    (c.locator files).hasEntry b.id entry ↔ b.Holds files entry := by
  have hany : (c.locator files).hasEntry b.id entry = c.toBundles.any fun a ↦
      a.id? == some b.id && (a.locate files entry).isSome := rfl
  rw [hany, List.any_eq_true, toBundles_eq]
  constructor
  · rintro ⟨a, ha, hentry⟩
    obtain ⟨hid, hlocate⟩ := Bool.and_eq_true_iff.mp hentry
    rcases List.mem_append.mp ha with ha | ha
    · obtain ⟨named, hnamed, rfl⟩ := List.mem_map.mp ha
      have hid : named.id = b.id := Option.some.inj (eq_of_beq hid)
      rw [← hc.eq_of_id_eq hnamed hb hid]
      exact BundleEntry.isSome_locate_toBundle.mp hlocate
    · obtain ⟨root, -, rfl⟩ := List.mem_map.mp ha
      cases hid
  · intro h
    refine ⟨b.toBundle, List.mem_append_left _ (List.mem_map_of_mem hb), ?_⟩
    rw [BundleEntry.isSome_locate_toBundle.mpr h, Bool.and_true]
    exact beq_self_eq_true _

/-- So a marker that is looked up for a resource is one beside the resource. -/
theorem hasBeside_iff (hc : c.Valid) (h : (c.locator files).find? path = some resource) :
    (∃ id, resource.bundle? = some id ∧ (c.locator files).hasEntry id entry) ↔
      c.HasBeside files path entry := by
  rw [(bundle?_of_find? h).2]
  constructor
  · rintro ⟨id, hid, hentry⟩
    obtain ⟨b, hb, rfl⟩ := Option.map_eq_some_iff.mp hid
    exact ⟨b, hb, (hasEntry_iff hc (List.mem_of_find?_eq_some hb)).mp hentry⟩
  · rintro ⟨b, hb, hentry⟩
    refine ⟨b.id, by rw [hb, Option.map_some], ?_⟩
    exact (hasEntry_iff hc (List.mem_of_find?_eq_some hb)).mpr hentry

end Configuration

/-! ## Markers -/

namespace Locator

variable {l : Locator} {layer : LayerResource} {className marker : String}

theorem hasPackageMarker_iff : l.hasPackageMarker layer className marker ↔
    ∃ id, layer.resource.bundle? = some id ∧ l.hasEntry id (markerPath className marker) := by
  rw [hasPackageMarker]
  cases layer.resource.bundle? with
  | none => simp
  | some id => simp

theorem keepsPresentations_iff : l.keepsPresentations layer className ↔
    layer.className = className ∧
      ∃ id, layer.resource.bundle? = some id ∧ l.hasEntry id keepPresentationsMarker := by
  rw [keepsPresentations, Bool.and_eq_true_iff, beq_iff_eq]
  cases layer.resource.bundle? with
  | none => simp
  | some id => simp

/-- The resource of a layer is found somewhere. -/
def Finds (l : Locator) (layer : LayerResource) : Prop :=
  ∃ path, l.find? path = some layer.resource

theorem finds_of_mem_layersOf {hierarchy : List ClassDecl} (h : layer ∈ l.layersOf hierarchy) :
    l.Finds layer := by
  obtain ⟨k, -, hk⟩ := List.mem_filterMap.mp (List.mem_reverse.mp h)
  obtain ⟨resource, hresource, rfl⟩ := Option.map_eq_some_iff.mp hk
  exact ⟨_, hresource⟩

end Locator

namespace Resolver

variable {r : Resolver} {q : Request} {key : Key} {layer : LayerResource}

theorem finds_of_contextLayer? (h : r.contextLayer? key = some layer) : r.locator.Finds layer := by
  obtain ⟨resource, hresource, rfl⟩ := Option.map_eq_some_iff.mp h
  exact ⟨_, hresource⟩

theorem finds_of_mem_contextLayers {layers : List LayerResource}
    (h : r.contextLayers q = .ok layers) : ∀ layer ∈ layers, r.locator.Finds layer := by
  intro layer hlayer
  cases hkey : q.contextKey? with
  | some key =>
    obtain rfl := Except.ok.inj ((className_of_contextKey? hkey).2.symm.trans h)
    exact finds_of_contextLayer? (Option.mem_toList.mp hlayer)
  | none =>
    cases q with
    | component name =>
      obtain rfl := Except.ok.inj h
      cases hlayer
    | factory f => cases hkey
    | exposed host method returnClass => cases hkey
    | parameter host place =>
      obtain ⟨hierarchy, -, h⟩ := bind_eq_ok_iff.mp h
      obtain rfl := Except.ok.inj h
      obtain ⟨k, -, hk⟩ := List.mem_filterMap.mp hlayer
      exact finds_of_contextLayer? hk

theorem finds_of_target {t : Target} (h : r.target q = .ok t) :
    ∀ layer ∈ t.context, r.locator.Finds layer := by
  obtain ⟨c, layers, -, hlayers, ⟨-, h⟩ | ⟨-, rfl⟩⟩ := target_eq_ok_iff.mp h
  · obtain ⟨named, -, rfl⟩ := classTarget_eq_ok_iff.mp h
    exact fun layer hlayer ↦ absurd hlayer List.not_mem_nil
  · exact finds_of_mem_contextLayers hlayers

theorem cached_completed_iff {last : LayerResource} {toolkit : Toolkit} {icon? : Option Icon}
    {d : Description} :
    (r.completed last toolkit icon? d).cached ↔
      d.key.isPure ∧ d.parameters.get? dontCacheParameter ≠ some "true" ∧
        (r.options.honorPackageMarkers = false ∨
          r.locator.keepsDescriptions last d.componentClass) := by
  simp only [completed, Description.parameter?, Bool.and_eq_true_iff, bne_iff_ne,
    Bool.or_eq_true_iff, Bool.not_eq_true', and_assoc]

end Resolver

/-! ## Resolvers of configurations -/

namespace Configuration

variable {c : Configuration} {files : FileTree} {r : Resolver} {q : Request} {d : Description}

/-- A configuration has a resolver only if it is valid. -/
theorem resolver_eq_ok_iff : c.resolver files = .ok r ↔
    c.Valid ∧ ∃ classPath, c.classPath files = .ok classPath ∧
      r = { classPath, locator := c.locator files, options := c.options } := by
  rw [← validate_eq_ok_iff, resolver]
  cases c.validate with
  | error e => simp
  | ok =>
    cases c.classPath files with
    | error failure => exact ⟨nofun, fun ⟨_, _, h, _⟩ ↦ nomatch h⟩
    | ok classPath =>
      constructor
      · intro h
        exact ⟨rfl, classPath, rfl, (Except.ok.inj h).symm⟩
      · rintro ⟨-, classPath, h, rfl⟩
        obtain rfl := Except.ok.inj h
        rfl

/-- A layer that is found is found at the path of its resource. -/
theorem find?_of_finds {layer : LayerResource} (h : (c.locator files).Finds layer) :
    (c.locator files).find? layer.resource.path = some layer.resource := by
  obtain ⟨path, hfind⟩ := h
  rwa [(bundle?_of_find? hfind).1]

/-- **What may be kept.**  A description is kept beyond a session if its key is a class, metadata
does not ask otherwise and, where markers count, the bundle of the last layer has the marker in the
package of the class.  Its presentations are kept if the last layer is the class's own and the
bundle of the layer has the marker for them. -/
theorem kept_iff (hr : c.resolver files = .ok r) (steps : List SessionStep)
    (h : r.reply q (r.after steps) = .ok d) :
    ∃ t hierarchy last documents, r.target q = .ok t ∧
      r.classPath.hierarchy d.classDecl = .ok hierarchy ∧
      (r.allLayers hierarchy t.context).getLast? = some last ∧
      (c.locator files).find? last.resource.path = some last.resource ∧
      (r.allLayers hierarchy t.context).mapM r.readLayer = .ok documents ∧
      (d.cached ↔ d.key.isPure ∧
        lastSome (·.document.parameters.get? dontCacheParameter) documents ≠ some "true" ∧
        (c.cache.honorPackageMarkers = false ∨ c.HasBeside files last.resource.path
          (Locator.markerPath d.componentClass keepDescriptionsMarker))) ∧
      (d.presentationCached ↔ last.className = d.componentClass ∧
        c.HasBeside files last.resource.path keepPresentationsMarker) := by
  obtain ⟨hvalid, classPath, -, rfl⟩ := resolver_eq_ok_iff.mp hr
  obtain ⟨t, htarget, hresolve⟩ :=
    (Resolver.reply_after_eq_ok_iff (Resolver.keepsKeys_of_processors_eq_nil rfl) steps).mp h
  obtain ⟨hierarchy, documents, last, m, toolkit, icon?, hhierarchy, -, hlast, hread, hcompose, -,
    -, -, rfl⟩ := (Resolver.resolve_eq_ok_iff rfl).mp hresolve
  have hsummary := Description.summary_of_compose hcompose
  have hfound : (c.locator files).Finds last := by
    rcases List.mem_append.mp (List.mem_of_getLast? hlast) with hmem | hmem
    · exact Locator.finds_of_mem_layersOf hmem
    · exact Resolver.finds_of_target htarget last hmem
  have hfind := find?_of_finds hfound
  refine ⟨t, hierarchy, last, documents, htarget, ?_, hlast, hfind, hread, ?_, ?_⟩
  · exact (congrArg classPath.hierarchy hsummary.classDecl).trans hhierarchy
  · rw [Resolver.cached_completed_iff, hsummary.parameters]
    refine and_congr_right fun _ ↦ and_congr_right fun _ ↦ or_congr_right ?_
    exact Locator.hasPackageMarker_iff.trans (hasBeside_iff hvalid hfind)
  · refine Locator.keepsPresentations_iff.trans (and_congr_right fun _ ↦ ?_)
    exact hasBeside_iff hvalid hfind

/-! Two bundles.  The second one describes the root class and has the marker for its package; the
marker for presentations is in the first one, where it does not count. -/

def objectText : Bytes := Xml.asciiBytes "<component><model class='a.Info'/></component>"

def objectFiles : FileTree where
  files := .ofList [
    ("/a/wbp-meta/.wbp-cache-presentations", []),
    ("/b/java/lang/.wbp-cache-descriptions", []),
    ("/b/java/lang/Object.wbp-component.xml", objectText)]

def objectConfiguration : Configuration where
  bundles := [{ id := "first", path := "/a" },
    { id := "second", path := "/b", toolkit? := some "swing" }]

def objectResolver : Resolver where
  classPath := .root
  locator := objectConfiguration.locator objectFiles

def objectClass : ClassDecl := (ClassDecl.ofName ClassName.object).withConstructor []

def objectLayer : LayerResource where
  className := ClassName.object
  resource :=
    { path := "java/lang/Object.wbp-component.xml", bundle? := some "second",
      toolkit? := some ⟨"swing"⟩,
      location := .file "/b/java/lang/Object.wbp-component.xml" (some objectText) }

/-- What the layer of the root class says. -/
def objectDocument : ClassLayer := ⟨{ modelClass? := some "a.Info" }, ClassName.object⟩

open StandardRules in
theorem readLayer_object : objectResolver.readLayer objectLayer = .ok objectDocument := by
  have hroot : Xml.read objectText = some { name := "component", children := [
      { name := "model", attributes := .ofList [("class", "a.Info")] }] } :=
    Xml.read_of_readVerbatim? (by decide +kernel)
  have hmatching : standardRules.filter (·.matches (pathOf ["model"])) = [model] := by
    rw [filter_matches_eq (not_isEditorParameter (by decide) (by decide))]
    rfl
  have hpath : childPath Rules.rootName "model" = pathOf ["model"] := rfl
  have happly : ∀ attributes text, Rules.apply standardRules ⟨Rules.rootName, attributes, text,
      [{ name := "model", attributes := .ofList [("class", "a.Info")] }]⟩ =
        .ok objectDocument.document := by
    intro attributes text
    rw [apply_component, documentOf, Rules.childCalls, Rules.calls, hpath, hmatching]
    rfl
  exact Resolver.readLayer_of_document (r := objectResolver)
    (Rules.readLayer_eq_ok rfl hroot (happly _ _))

theorem hierarchy_object :
    objectResolver.classPath.hierarchy objectClass = .ok [objectClass] :=
  ClassPath.hierarchy_eq_singleton rfl

theorem layersOf_object : objectResolver.locator.layersOf [objectClass] = [objectLayer] := by
  decide +kernel

theorem allLayers_object : objectResolver.allLayers [objectClass] [] = [objectLayer] := by
  rw [Resolver.allLayers, layersOf_object, List.append_nil]

theorem mapM_readLayer_object :
    (objectResolver.allLayers [objectClass] []).mapM objectResolver.readLayer =
      .ok [objectDocument] := by
  rw [allLayers_object, List.mapM_cons, readLayer_object]
  rfl

theorem exists_reply_object : ∃ t d, objectResolver.target (.component ClassName.object) = .ok t ∧
    t.context = [] ∧ d.key = .pure ClassName.object ∧ d.classDecl = objectClass ∧
      objectResolver.reply (.component ClassName.object) (objectResolver.after []) = .ok d := by
  have hkeys : objectResolver.KeepsKeys := Resolver.keepsKeys_of_processors_eq_nil rfl
  have hclasses : objectResolver.KeepsClasses := Resolver.keepsClasses_of_processors_eq_nil rfl
  have hown : objectResolver.locator.layersOf [objectClass] ≠ [] := by
    rw [layersOf_object]
    exact List.cons_ne_nil _ _
  have htoolkit : ∀ d : Description,
      (Resolver.toolkitOf? (objectResolver.allLayers [objectClass] []) d).isSome := by
    intro d
    rw [allLayers_object, Resolver.toolkitOf?, Option.isSome_or]
    exact Bool.or_true _
  have htarget : objectResolver.target (.component ClassName.object) =
      .ok { key := .pure ClassName.object, classDecl := objectClass } := by
    refine Resolver.target_eq_ok_iff.mpr ⟨objectClass, [], rfl, rfl, .inl ⟨rfl, ?_⟩⟩
    refine Resolver.classTarget_eq_ok_iff.mpr ⟨objectClass, ?_, rfl⟩
    exact ClassPath.namedFrom_of_superclass?_eq_none rfl
  obtain ⟨d, hd⟩ : ∃ d, objectResolver.resolve (.pure ClassName.object) objectClass [] = .ok d :=
    Resolver.exists_resolve_eq_ok rfl hierarchy_object hown mapM_readLayer_object rfl (htoolkit _)
      (ClassPath.searchEnds_of_parents_eq_nil rfl) rfl
  have hreply := (Resolver.reply_after_eq_ok_iff hkeys []).mpr ⟨_, htarget, hd⟩
  exact ⟨_, d, htarget, rfl, Resolver.key_of_resolve hkeys hd,
    Resolver.classDecl_of_resolve hclasses hd, hreply⟩

theorem kept_iff_object : objectConfiguration.resolver objectFiles = .ok objectResolver ∧
    ∃ d, objectResolver.reply (.component ClassName.object) (objectResolver.after []) = .ok d ∧
      d.cached = true ∧ d.presentationCached = false := by
  have hresolver : objectConfiguration.resolver objectFiles = .ok objectResolver := by
    refine resolver_eq_ok_iff.mpr ⟨validate_eq_ok_iff.mp ?_, .root, rfl, rfl⟩
    decide +kernel
  obtain ⟨t, d, htarget, hcontext, hkey, hclass, hreply⟩ := exists_reply_object
  obtain ⟨t', hierarchy, last, documents, htarget', hhierarchy, hlast, -, hread, hcached,
    hpresentations⟩ := kept_iff hresolver [] hreply
  obtain rfl := Except.ok.inj (htarget.symm.trans htarget')
  rw [hclass, hierarchy_object] at hhierarchy
  obtain rfl := Except.ok.inj hhierarchy
  rw [hcontext, allLayers_object] at hlast
  obtain rfl := Option.some.inj hlast
  rw [hcontext, mapM_readLayer_object] at hread
  obtain rfl := Except.ok.inj hread
  have hbundle : objectConfiguration.bundleOf? objectFiles objectLayer.resource.path =
      some { id := "second", path := "/b", toolkit? := some "swing" } := by
    decide +kernel
  have hname : d.componentClass = ClassName.object := congrArg ClassDecl.name hclass
  refine ⟨hresolver, d, hreply, hcached.mpr ⟨?_, ?_, .inr ⟨_, hbundle, ?_⟩⟩, ?_⟩
  · rw [hkey]
    rfl
  · exact (Option.some_ne_none "true").symm
  · rw [hname]
    decide +kernel
  · rw [← Bool.not_eq_true, hpresentations]
    rintro ⟨-, b, hb, hholds⟩
    obtain rfl := Option.some.inj (hbundle.symm.trans hb)
    exact absurd hholds (by decide +kernel)

end Configuration

end ComponentCatalog
