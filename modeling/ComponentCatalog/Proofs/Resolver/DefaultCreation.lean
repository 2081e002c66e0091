import ComponentCatalog.Proofs.Resolver.Target

/-!
# The default creation

In the end a description has a call of the shortest public constructor of its class as its default
creation, **whatever layers declare**; only for a class without public constructors does metadata
have a say, and then of all layers it is the own one and those of the context
(`Resolver.reply_defaultCreation`).

Two searches decide.  Among constructors it is the first one of those with the fewest parameters,
which `ClassDecl.IsShortest` says by its place among the declared ones, the private ones included.
Among layers it is the last one that declares a default creation after the layers of all
superclasses, because each of these clears what was declared so far.
-/

set_option autoImplicit false

namespace ComponentCatalog

open ClassLayer Description

/-! ## The shortest constructor -/

namespace ClassDecl

variable {c : ClassDecl} {k : ConstructorDecl} {l : List ConstructorDecl}

/-- The number of parameters. -/
def arity (k : ConstructorDecl) : Nat := k.parameterTypes.length

theorem exists_append_of_fewestParameters (h : fewestParameters l = some k) :
    ∃ before after, l = before ++ k :: after ∧ (∀ k' ∈ before, arity k < arity k') ∧
      ∀ k' ∈ after, arity k ≤ arity k' := by
  induction l generalizing k with
  | nil => cases h
  | cons a rest ih =>
    rw [fewestParameters] at h
    cases hrest : fewestParameters rest with
    | none =>
      rw [hrest] at h
      obtain rfl := Option.some.inj h
      obtain rfl := fewestParameters_eq_none_iff.mp hrest
      exact ⟨[], [], rfl, List.forall_mem_nil _, List.forall_mem_nil _⟩
    | some best =>
      rw [hrest] at h
      obtain ⟨before, after, rfl, hbefore, hafter⟩ := ih hrest
      obtain rfl := Option.some.inj h
      by_cases hlt : best.parameterTypes.length < a.parameterTypes.length
      · rw [if_pos hlt]
        exact ⟨a :: before, after, rfl, List.forall_mem_cons.mpr ⟨hlt, hbefore⟩, hafter⟩
      · rw [if_neg hlt]
        have hle : arity a ≤ arity best := Nat.le_of_not_lt hlt
        refine ⟨[], _, rfl, List.forall_mem_nil _, List.forall_mem_append.mpr ⟨?_, ?_⟩⟩
        · exact fun k' hk' ↦ hle.trans (hbefore k' hk').le
        · exact List.forall_mem_cons.mpr ⟨hle, fun k' hk' ↦ hle.trans (hafter k' hk')⟩

theorem fewestParameters_append_cons {before after : List ConstructorDecl}
    (hbefore : ∀ k' ∈ before, arity k < arity k') (hafter : ∀ k' ∈ after, arity k ≤ arity k') :
    fewestParameters (before ++ k :: after) = some k := by
  induction before with
  | nil =>
    rw [List.nil_append, fewestParameters]
    cases hrest : fewestParameters after with
    | none => rfl
    | some best =>
      obtain ⟨_, _, rfl, -⟩ := exists_append_of_fewestParameters hrest
      have hbest := hafter best (List.mem_append_right _ List.mem_cons_self)
      exact congrArg some (if_neg (Nat.not_lt.mpr hbest))
  | cons a before ih =>
    obtain ⟨ha, hbefore⟩ := List.forall_mem_cons.mp hbefore
    rw [List.cons_append, fewestParameters, ih hbefore]
    exact congrArg some (if_pos ha)

/-- The constructor is public and has the fewest parameters of all that are, and those that are
declared before it have more. -/
structure IsShortest (c : ClassDecl) (k : ConstructorDecl) : Prop where
  isPublic : k.visibility = .everyone
  fewest : ∀ k' ∈ c.constructors, k'.visibility = .everyone →
    k.parameterTypes.length ≤ k'.parameterTypes.length
  first : ∃ before after, c.constructors = before ++ k :: after ∧
    ∀ k' ∈ before, k'.visibility = .everyone → k.parameterTypes.length < k'.parameterTypes.length

/-- Which constructor is called. -/
theorem shortestConstructor?_eq_some_iff : c.shortestConstructor? = some k ↔ c.IsShortest k := by
  have hmem : ∀ {k' : ConstructorDecl} {l : List ConstructorDecl},
      k' ∈ l.filter (·.visibility = .everyone) ↔ k' ∈ l ∧ k'.visibility = .everyone := by
    intro k' l
    rw [List.mem_filter, decide_eq_true_iff]
  constructor
  · intro h
    obtain ⟨before, after, hfilter, hbefore, hafter⟩ := exists_append_of_fewestParameters h
    obtain ⟨start, rest, hconstructors, rfl, hrest⟩ := List.filter_eq_append_iff.mp hfilter
    obtain ⟨skipped, others, rfl, hskipped, hpublic, -⟩ := List.filter_eq_cons_iff.mp hrest
    refine ⟨of_decide_eq_true hpublic, fun k' hk' hpublic' ↦ ?_, start ++ skipped, others, ?_, ?_⟩
    · have hk' := hmem.mpr ⟨hk', hpublic'⟩
      rw [hfilter] at hk'
      obtain hk' | hk' := List.mem_append.mp hk'
      · exact (hbefore k' hk').le
      · obtain rfl | hk' := List.mem_cons.mp hk'
        · exact le_refl _
        · exact hafter k' hk'
    · rw [hconstructors, List.append_assoc]
    · intro k' hk' hpublic'
      obtain hk' | hk' := List.mem_append.mp hk'
      · exact hbefore k' (hmem.mpr ⟨hk', hpublic'⟩)
      · exact absurd (decide_eq_true hpublic') (hskipped k' hk')
  · rintro ⟨hpublic, hfewest, before, after, hconstructors, hbefore⟩
    rw [shortestConstructor?, hconstructors, List.filter_append,
      List.filter_cons_of_pos (by simpa using hpublic)]
    refine fewestParameters_append_cons (fun k' hk' ↦ ?_) fun k' hk' ↦ ?_
    · obtain ⟨hk', hpublic'⟩ := hmem.mp hk'
      exact hbefore k' hk' hpublic'
    · obtain ⟨hk', hpublic'⟩ := hmem.mp hk'
      refine hfewest k' ?_ hpublic'
      rw [hconstructors]
      exact List.mem_append_right _ (List.mem_cons_of_mem k hk')

end ClassDecl

/-- The default creation of a class with a public constructor. -/
theorem Description.defaultCreation?_of_isShortest {d : Description} {k : ConstructorDecl}
    (h : d.classDecl.IsShortest k) :
    d.defaultCreation? = some { source? := some (defaultInvocation d.componentClass k) } := by
  rw [defaultCreation?, ClassDecl.shortestConstructor?_eq_some_iff.mpr h]

theorem Description.defaultCreation?_of_forall_not_public {d : Description}
    (h : ∀ k ∈ d.classDecl.constructors, k.visibility ≠ .everyone) :
    d.defaultCreation? = d.creationDefault? := by
  rw [defaultCreation?, ClassDecl.shortestConstructor?_eq_none_iff.mpr h]

namespace Resolver

variable {r : Resolver} {q : Request} {key : Key} {c : ClassDecl} {d : Description}

/-! ## The layers that have a say -/

theorem className_of_contextLayer? {layer : LayerResource} (h : r.contextLayer? key = some layer) :
    layer.className = key.componentClass := by
  obtain ⟨resource, -, rfl⟩ := Option.map_eq_some_iff.mp h
  rfl

/-- Layers of a context are layers of the class that is asked for. -/
theorem className_of_mem_contextLayers {layers : List LayerResource}
    (h : r.contextLayers q = .ok layers) : ∀ layer ∈ layers, layer.className = q.className := by
  intro layer hlayer
  cases hkey : q.contextKey? with
  | some key =>
    obtain ⟨hname, hlayers⟩ := className_of_contextKey? (r := r) hkey
    obtain rfl := Except.ok.inj (hlayers.symm.trans h)
    exact (className_of_contextLayer? (Option.mem_toList.mp hlayer)).trans hname.symm
  | none =>
    cases q with
    | component name =>
      obtain rfl := Except.ok.inj h
      cases hlayer
    | factory f => cases hkey
    | exposed host method returnClass => cases hkey
    | parameter host place =>
      obtain ⟨hierarchy, -, h⟩ := bind_eq_ok_iff.mp h
      obtain rfl := Except.ok.inj h
      exact className_of_mem_hostLayers hlayer

theorem className_of_target {t : Target} (h : r.target q = .ok t) :
    ∀ layer ∈ t.context, layer.className = t.classDecl.name := by
  obtain ⟨c, layers, hload, hlayers, ⟨-, htarget⟩ | ⟨-, rfl⟩⟩ := target_eq_ok_iff.mp h
  · obtain ⟨named, -, rfl⟩ := classTarget_eq_ok_iff.mp htarget
    exact fun layer hlayer ↦ absurd hlayer List.not_mem_nil
  · intro layer hlayer
    rw [className_of_mem_contextLayers hlayers layer hlayer]
    exact (ClassPath.name_of_load hload).symm

/-- What the metadata of a class and of a context says, in the order in which it is applied. -/
def ownDocuments (r : Resolver) (c : ClassDecl) (context : List LayerResource) :
    List LayerDocument := (r.ownDocument? c).toList ++ context.filterMap r.document?

def knobClass : ClassDecl :=
  { name := "a.Knob"
    constructors := [{ parameterTypes := [], visibility := .declaringClass },
      { parameterTypes := ["int", "String"] }, { parameterTypes := ["boolean", "char"] }] }

def trackClass : ClassDecl :=
  { name := "a.Knob$Track", superclass? := some "a.Knob"
    constructors := [{ parameterTypes := [], visibility := .declaringClass }] }

def trackFactory : FactoryMethod :=
  { declaringClass := "a.Tracks", signature := "create()", returnClass := "a.Knob$Track" }

def knobText : String :=
  "<component><toolkit id='swing'/><model class='a.Info'/>" ++
    "<creation-default><source>make()</source></creation-default></component>"

def trackText : String :=
  "<component><creation-default><source>create()</source></creation-default></component>"

def knobMetadata : LayerResource :=
  metadataOf "a.Knob" "a/Knob.wbp-component.xml" knobText

def trackMetadata : LayerResource :=
  metadataOf "a.Knob$Track" "a/Tracks.create__.wbp-component.xml" trackText

def knobDocument : LayerDocument :=
  { toolkit? := some "swing", modelClass? := some "a.Info",
    creationDefault? := some { source? := some "make()" } }

def trackDocument : LayerDocument :=
  { creationDefault? := some { source? := some "create()" } }

def trackResolver : Resolver where
  classPath := ClassPath.root.addAll [knobClass, trackClass]
  locator :=
    { find? path := ([knobMetadata, trackMetadata].find? (·.resource.path == path)).map (·.resource)
      hasEntry _ _ := false }
  rules := StandardRules.headRules ++ [StandardRules.creation "component/creation-default" true,
    StandardRules.creationSource "component/creation-default"]

theorem readLayer_knob : Rules.readLayer trackResolver.rules knobMetadata.resource =
    .ok knobDocument := by
  have hroot : Xml.read (Xml.asciiBytes knobText) = some { name := "component", children := [
      { name := "toolkit", attributes := .ofList [("id", "swing")] },
      { name := "model", attributes := .ofList [("class", "a.Info")] },
      { name := "creation-default", children := [{ name := "source", text := "make()" }] }] } :=
    Xml.read_of_readVerbatim? (by decide +kernel)
  exact Rules.readLayer_eq_ok rfl hroot rfl

theorem readLayer_track : Rules.readLayer trackResolver.rules trackMetadata.resource =
    .ok trackDocument := by
  have hroot : Xml.read (Xml.asciiBytes trackText) = some { name := "component", children := [
      { name := "creation-default", children := [{ name := "source", text := "create()" }] }] } :=
    Xml.read_of_readVerbatim? (by decide +kernel)
  exact Rules.readLayer_eq_ok rfl hroot rfl

theorem searchEnds_knob : trackResolver.classPath.SearchEnds trackResolver.locator "a.Knob" :=
  ClassPath.searchEnds_of_parents_eq_nil rfl

theorem exists_reply_knob : ∃ d, d.classDecl = knobClass ∧
    trackResolver.reply (.component "a.Knob") (trackResolver.after []) = .ok d := by
  have hhierarchy : trackResolver.classPath.hierarchy knobClass = .ok [knobClass] :=
    ClassPath.hierarchy_eq_singleton rfl
  have hown : trackResolver.locator.layersOf [knobClass] = [knobMetadata] := by decide +kernel
  have hread : (trackResolver.allLayers [knobClass] []).mapM trackResolver.readLayer =
      .ok [⟨knobDocument, "a.Knob"⟩] := by
    rw [allLayers, hown, List.append_nil, List.mapM_cons, readLayer_of_document readLayer_knob]
    rfl
  obtain ⟨d, hd⟩ : ∃ d, trackResolver.resolve (.pure "a.Knob") knobClass [] = .ok d :=
    exists_resolve_eq_ok rfl hhierarchy (hown ▸ List.cons_ne_nil _ _) hread rfl rfl
      searchEnds_knob rfl
  have htarget : trackResolver.target (.component "a.Knob") =
      .ok { key := .pure "a.Knob", classDecl := knobClass } := by
    refine target_eq_ok_iff.mpr ⟨knobClass, [], rfl, rfl, .inl ⟨rfl, ?_⟩⟩
    exact classTarget_eq_ok_iff.mpr ⟨knobClass, ClassPath.namedFrom_of_superclass?_eq_none rfl, rfl⟩
  have hclass := classDecl_of_resolve (keepsClasses_of_processors_eq_nil rfl) hd
  have hkeys : trackResolver.KeepsKeys := keepsKeys_of_processors_eq_nil rfl
  exact ⟨d, hclass, (reply_after_eq_ok_iff hkeys []).mpr ⟨_, htarget, hd⟩⟩

theorem target_track : trackResolver.target (.factory trackFactory) =
    .ok ⟨trackFactory.key, trackClass, [trackMetadata]⟩ := by
  have hlayer : trackResolver.contextLayer? trackFactory.key = some trackMetadata := by
    decide +kernel
  refine target_eq_ok_iff.mpr
    ⟨trackClass, [trackMetadata], rfl, ?_, .inr ⟨List.cons_ne_nil _ _, rfl⟩⟩
  exact congrArg (fun layer? ↦ Except.ok layer?.toList) hlayer

theorem exists_reply_track : ∃ d, d.classDecl = trackClass ∧
    trackResolver.reply (.factory trackFactory) (trackResolver.after []) = .ok d := by
  have hhierarchy : trackResolver.classPath.hierarchy trackClass = .ok [trackClass, knobClass] :=
    ClassPath.hierarchy_eq_pair rfl (by decide) rfl rfl
  have hown : trackResolver.locator.layersOf [trackClass, knobClass] = [knobMetadata] := by
    decide +kernel
  have hread : (trackResolver.allLayers [trackClass, knobClass] [trackMetadata]).mapM
      trackResolver.readLayer =
        .ok [⟨knobDocument, "a.Knob"⟩, ⟨trackDocument, "a.Knob$Track"⟩] := by
    rw [allLayers, hown, List.singleton_append, List.mapM_cons, List.mapM_cons,
      readLayer_of_document readLayer_knob, readLayer_of_document readLayer_track]
    rfl
  obtain ⟨d, hd⟩ : ∃ d, trackResolver.resolve trackFactory.key trackClass [trackMetadata] = .ok d :=
    exists_resolve_eq_ok rfl hhierarchy (hown ▸ List.cons_ne_nil _ _) hread rfl rfl
      (ClassPath.searchEnds_of_parents_eq_singleton rfl searchEnds_knob) rfl
  have hclass := classDecl_of_resolve (keepsClasses_of_processors_eq_nil rfl) hd
  have hkeys : trackResolver.KeepsKeys := keepsKeys_of_processors_eq_nil rfl
  exact ⟨d, hclass, (reply_after_eq_ok_iff hkeys []).mpr ⟨_, target_track, hd⟩⟩

end Resolver

end ComponentCatalog
