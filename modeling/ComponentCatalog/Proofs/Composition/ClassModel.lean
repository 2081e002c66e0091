import ComponentCatalog.Proofs.Composition.History

/-!
# Members and the class model

A description says more of constructors and methods than the class model does, but **never anything
else** (`Description.followsClassModel_after`).  At every point of every history of a description,
whether or not layers failed on the way:

* its constructors are those of its class, in their order;
* each of its methods is one that a class of the hierarchy declares for everyone to call, and no
  two have the same signature;
* the parameters of both are numbered from zero and of the declared types.

What metadata cannot change of a member is its bare form (`Constructor.bare`, `Method.bare`).  In
bare form the constructors stay the same, and a list of methods can only lose methods and get new
ones of the hierarchy, so the invariant `Description.FromClassModel` is one of the bare forms.
-/

set_option autoImplicit false

namespace ComponentCatalog

/-! ## Bare members -/

namespace Parameter

/-- The parameter without what metadata says of it. -/
def bare (p : Parameter) : Parameter := { index := p.index, typeName := p.typeName }

/-- What is declared of parameters changes neither their number nor their order. -/
theorem map_bare_enrichEach (ps declared : List Parameter) :
    (enrichEach ps declared).map bare = ps.map bare := by
  fun_induction enrichEach ps declared with
  | case1 p ps d declared ih => exact congrArg (p.bare :: ·) ih
  | case2 => rfl

theorem map_bare_ofTypesFrom (types : List String) :
    ∀ index, (ofTypesFrom index types).map bare = ofTypesFrom index types := by
  induction types with
  | nil => exact fun _ ↦ rfl
  | cons t types ih => exact fun index ↦ congrArg (_ :: ·) (ih (index + 1))

theorem length_ofTypesFrom (types : List String) :
    ∀ index, (ofTypesFrom index types).length = types.length := by
  induction types with
  | nil => exact fun _ ↦ rfl
  | cons t types ih => exact fun index ↦ congrArg (· + 1) (ih (index + 1))

/-- The parameter at a place has the number of the place, counted from `index`. -/
theorem getElem?_ofTypesFrom (types : List String) (index i : Nat) :
    (ofTypesFrom index types)[i]? =
      types[i]?.map fun typeName ↦ ({ index := index + i, typeName } : Parameter) := by
  induction types generalizing index i with
  | nil => rfl
  | cons t types ih =>
    cases i with
    | zero => rfl
    | succ i =>
      rw [ofTypesFrom, List.getElem?_cons_succ, List.getElem?_cons_succ, ih, Nat.add_right_comm]
      rfl

/-- The parameters are numbered from zero and of the given types. -/
structure Fit (types : List String) (ps : List Parameter) : Prop where
  length : ps.length = types.length
  at_index : ∀ (i : Nat) (p : Parameter), ps[i]? = some p →
    p.index = i ∧ types[i]? = some p.typeName

/-- Parameters that have the bare form of given types are as many, and fit one by one. -/
theorem fit_of_map_bare {types : List String} {ps : List Parameter}
    (h : ps.map bare = ofTypes types) : Fit types ps where
  length := by
    have hlength := congrArg List.length h
    rwa [List.length_map, ofTypes, length_ofTypesFrom] at hlength
  at_index i p hp := by
    have hat := congrArg (·[i]?) h
    simp only [List.getElem?_map, hp, ofTypes, getElem?_ofTypesFrom] at hat
    obtain ⟨typeName, htype, heq⟩ := Option.map_eq_some_iff.mp hat.symm
    obtain ⟨hindex, rfl⟩ : 0 + i = p.index ∧ typeName = p.typeName :=
      ⟨congrArg Parameter.index heq, congrArg Parameter.typeName heq⟩
    exact ⟨by omega, htype⟩

end Parameter

namespace Constructor

/-- The constructor without what metadata says of its parameters. -/
def bare (c : Constructor) : Constructor :=
  { declaringClass := c.declaringClass, parameters := c.parameters.map (·.bare) }

theorem bare_enrich (c : Constructor) (declared : List Parameter) :
    (c.enrich declared).bare = c.bare := by
  rw [bare, enrich, Parameter.map_bare_enrichEach, bare]

theorem bare_ofTypes (declaringClass : String) (types : List String) :
    (ofTypes declaringClass types).bare = ofTypes declaringClass types := by
  rw [bare, ofTypes, Parameter.ofTypes, Parameter.map_bare_ofTypesFrom]

/-- Signatures are made of types, which the bare form keeps. -/
theorem signature_bare (c : Constructor) : c.bare.signature = c.signature := by
  rw [signature, signature, bare, List.map_map]
  rfl

/-- A constructor made from its declaration has the signature of that. -/
theorem signature_ofTypes (declaringClass : String) (k : ConstructorDecl) :
    (ofTypes declaringClass k.parameterTypes).signature = k.signature := by
  rw [signature, ofTypes, Parameter.ofTypes, Parameter.map_typeName_ofTypesFrom,
    ConstructorDecl.signature]

end Constructor

namespace Method

/-- The method without what metadata says of it. -/
def bare (m : Method) : Method :=
  { declaringClass := m.declaringClass, name := m.name, returnType := m.returnType,
    parameters := m.parameters.map (·.bare) }

/-- A note on a method adds tags, an order and what it says of parameters. -/
theorem bare_annotate (m : Method) (n : MethodNote) : (m.annotate n).bare = m.bare := by
  rw [bare, annotate, enrich, Parameter.map_bare_enrichEach, bare]

theorem bare_withOrder (m : Method) (order : MethodOrder) :
    ({ m with order? := some order } : Method).bare = m.bare := rfl

theorem bare_ofDecl (declaringClass : String) (m : MethodDecl) :
    (ofDecl declaringClass m).bare = ofDecl declaringClass m := by
  rw [bare, ofDecl, Parameter.ofTypes, Parameter.map_bare_ofTypesFrom]

theorem signature_bare (m : Method) : m.bare.signature = m.signature := by
  rw [signature, signature, bare, List.map_map]
  rfl

end Method

namespace Description

/-! ## One step -/

/-- In bare form, the members of the description come from the class model. -/
structure FromClassModel (hierarchy : List ClassDecl) (c : ClassDecl) (d : Description) : Prop where
  classDecl : d.classDecl = c
  constructors :
    d.constructors.map (·.bare) = c.constructors.map fun k ↦ .ofTypes c.name k.parameterTypes
  methods : ∀ m ∈ d.methods.map (·.bare), ∃ k ∈ hierarchy, ∃ decl ∈ k.methods,
    decl.isPublicInstance ∧ m = .ofDecl k.name decl
  signatures : ((d.methods.map (·.bare)).map (·.signature)).Nodup

variable {hierarchy : List ClassDecl} {c : ClassDecl} {s : Setting} {d e : Description}

/-- A new description has the constructors of its class and no methods. -/
theorem fromClassModel_ofClass (hierarchy : List ClassDecl) (key : Key) (c : ClassDecl) :
    FromClassModel hierarchy c (ofClass key c) where
  classDecl := rfl
  constructors := by simp only [ofClass, List.map_map, Function.comp_def, Constructor.bare_ofTypes]
  methods := List.forall_mem_nil _
  signatures := List.nodup_nil

namespace FromClassModel

/-- The invariant is one of bare forms, so changes that keep those keep it. -/
theorem congr (hd : FromClassModel hierarchy c d) (hclass : e.classDecl = d.classDecl)
    (hconstructors : e.constructors.map (·.bare) = d.constructors.map (·.bare))
    (hmethods : e.methods.map (·.bare) = d.methods.map (·.bare)) :
    FromClassModel hierarchy c e where
  classDecl := hclass.trans hd.classDecl
  constructors := hconstructors.trans hd.constructors
  methods := hmethods ▸ hd.methods
  signatures := hmethods ▸ hd.signatures

/-- The new method is declared in the hierarchy, and its signature is not among those that are
there: what metadata says of a method does not change its signature. -/
theorem addMethod (hd : FromClassModel s.hierarchy c d) {className : String} {m : MethodDecl}
    (hdecl : s.Declares className m) (hnew : d.method? m.signature = none) :
    FromClassModel s.hierarchy c (d.addMethod (.ofDecl className m)) := by
  have hmethods : (d.addMethod (.ofDecl className m)).methods.map (·.bare) =
      d.methods.map (·.bare) ++ [.ofDecl className m] := by
    simp only [Description.addMethod, List.map_append, List.map_singleton, Method.bare_ofDecl]
  refine ⟨hd.classDecl, hd.constructors, ?_, ?_⟩
  · rw [hmethods]
    intro m' hm'
    rcases List.mem_append.mp hm' with hm' | hm'
    · exact hd.methods m' hm'
    · obtain rfl := List.mem_singleton.mp hm'
      obtain ⟨k, hk, rfl, hm, hpublic⟩ := hdecl
      exact ⟨k, hk, m, hm, hpublic, rfl⟩
  · rw [hmethods, List.map_append, List.map_singleton, Method.signature_ofDecl]
    refine hd.signatures.append (List.nodup_singleton _) (List.disjoint_singleton.mpr fun hmem ↦ ?_)
    obtain ⟨_, hbare, hsignature⟩ := List.mem_map.mp hmem
    obtain ⟨m', hm', rfl⟩ := List.mem_map.mp hbare
    rw [Method.signature_bare] at hsignature
    exact List.find?_eq_none.mp hnew m' hm' (by simpa using hsignature)

/-- To drop methods keeps all that is said of each, and of each two. -/
theorem filterMethods (hd : FromClassModel hierarchy c d) (keep : Method → Bool) :
    FromClassModel hierarchy c { d with methods := d.methods.filter keep } := by
  have hsub : ((d.methods.filter keep).map (·.bare)).Sublist (d.methods.map (·.bare)) :=
    List.filter_sublist.map _
  exact ⟨hd.classDecl, hd.constructors, fun m hm ↦ hd.methods m (hsub.subset hm),
    hd.signatures.sublist (hsub.map _)⟩

/-- **One step**: only a new method brings anything of the class model in. -/
theorem memberStep (h : MemberStep s d e) (hd : FromClassModel s.hierarchy c d) :
    FromClassModel s.hierarchy c e := by
  cases h with
  | property p => exact hd.congr rfl rfl rfl
  | override o => exact hd.congr rfl rfl rfl
  | constructor n => exact hd.congr rfl (map_updateFirst (·.bare_enrich n.parameters) _ _) rfl
  | newMethod className m hdecl hnew => exact hd.addMethod hdecl hnew
  | annotate n => exact hd.congr rfl rfl (map_updateFirst (·.bare_annotate n) _ _)
  | order signature order => exact hd.congr rfl rfl (map_updateFirst (·.bare_withOrder order) _ _)
  | exclude pattern => exact hd.filterMethods _

end FromClassModel

/-- So the class model stays the source of members. -/
theorem invariant_fromClassModel (hierarchy : List ClassDecl) (c : ClassDecl) :
    Invariant (·.hierarchy = hierarchy) (FromClassModel hierarchy c) where
  member := by
    rintro s rfl d e hstep hd
    exact hd.memberStep hstep
  frame hsame hd :=
    hd.congr hsame.classDecl (congrArg (List.map _) hsame.constructors)
      (congrArg (List.map _) hsame.methods)
  property step hd := by
    cases step with
    | add p => exact hd.congr rfl rfl rfl
    | configure o => exact hd.congr rfl rfl rfl
  join hd := hd.congr rfl rfl rfl

/-! ## Histories -/

/-- The constructor is the declared one, as far as the class model goes. -/
structure ConstructorFits (className : String) (k : Constructor) (decl : ConstructorDecl) : Prop
    where
  declaringClass : k.declaringClass = className
  signature : k.signature = decl.signature
  parameters : Parameter.Fit decl.parameterTypes k.parameters

/-- The method is one that a class of the hierarchy declares for everyone to call. -/
def MethodFits (hierarchy : List ClassDecl) (m : Method) : Prop :=
  ∃ k ∈ hierarchy, k.name = m.declaringClass ∧ ∃ decl ∈ k.methods, decl.isPublicInstance ∧
    decl.name = m.name ∧ decl.returnType = m.returnType ∧
    Parameter.Fit decl.parameterTypes m.parameters

/-- The members of the description are those of the class model, as far as that goes. -/
structure FollowsClassModel (hierarchy : List ClassDecl) (c : ClassDecl) (d : Description) : Prop
    where
  classDecl : d.classDecl = c
  signatures : (d.methods.map (·.signature)).Nodup
  methods : ∀ m ∈ d.methods, MethodFits hierarchy m
  constructors : List.Forall₂ (ConstructorFits c.name) d.constructors c.constructors

/-- The bare form has all that a constructor takes from the class model. -/
theorem constructorFits_of_bare {className : String} {k : Constructor} {decl : ConstructorDecl}
    (h : k.bare = .ofTypes className decl.parameterTypes) : ConstructorFits className k decl where
  declaringClass := congrArg Constructor.declaringClass h
  signature := by rw [← k.signature_bare, h, Constructor.signature_ofTypes]
  parameters := Parameter.fit_of_map_bare (congrArg Constructor.parameters h)

/-- What holds of the bare forms, said of the members themselves. -/
theorem FromClassModel.followsClassModel (hd : FromClassModel hierarchy c d) :
    FollowsClassModel hierarchy c d where
  classDecl := hd.classDecl
  signatures := by
    have hsignatures := hd.signatures
    rw [List.map_map] at hsignatures
    simpa only [Function.comp_def, Method.signature_bare] using hsignatures
  methods m hm := by
    obtain ⟨k, hk, decl, hdecl, hpublic, hbare⟩ := hd.methods _ (List.mem_map_of_mem hm)
    exact ⟨k, hk, (congrArg Method.declaringClass hbare).symm, decl, hdecl, hpublic,
      (congrArg Method.name hbare).symm, (congrArg Method.returnType hbare).symm,
      Parameter.fit_of_map_bare (congrArg Method.parameters hbare)⟩
  constructors := by
    have hpairs : List.Forall₂ (· = ·) (d.constructors.map (·.bare))
        (c.constructors.map fun k ↦ .ofTypes c.name k.parameterTypes) := by
      rw [List.forall₂_eq_eq_eq]
      exact hd.constructors
    rw [List.forall₂_map_left_iff, List.forall₂_map_right_iff] at hpairs
    exact hpairs.imp fun _ _ ↦ constructorFits_of_bare

/-- **Members follow the class model** at every point of every history, if all layers are applied
against one hierarchy. -/
theorem followsClassModel_after {steps : List CompositionStep}
    (hsteps : ∀ s document layerClass, .layer s document layerClass ∈ steps →
      s.hierarchy = hierarchy) (key : Key) (c : ClassDecl) :
    FollowsClassModel hierarchy c ((ofClass key c).after steps) :=
  have hinvariant := invariant_fromClassModel hierarchy c
  (hinvariant.after (fromClassModel_ofClass hierarchy key c) hsteps).followsClassModel

/-! A field whose methods are all included by the layer of its superclass.  Its own layer drops the
setter, gets it back by giving it an order, and then fails at a method that no one else can call. -/

def fieldClass : ClassDecl :=
  { name := "a.Field", superclass? := some "a.Widget"
    constructors := [{ parameterTypes := ["int", "String"] }]
    methods := [{ name := "setText", parameterTypes := ["String"] }, { name := "update" }] }

def fieldHierarchy : List ClassDecl :=
  [fieldClass,
    { name := "a.Widget"
      methods := [{ name := "update", returnType := "boolean" },
        { name := "init", visibility := .declaringClass }] }]

def fieldSetting : Setting :=
  { hierarchy := fieldHierarchy
    classPath := .root
    locator := ⟨fun _ ↦ none, fun _ _ ↦ false⟩
    strictMembers := true }

def fieldSteps : List CompositionStep :=
  [.layer fieldSetting { methodOperations := [{ includes := true, pattern := "*" }] } "a.Widget",
    .finish "a.Widget",
    .layer fieldSetting
      { constructors := [{ parameters := [{ index := 0, typeName := "int", name? := some "style" },
          { index := 1, typeName := "String" }] }]
        methodOperations := [{ includes := false, pattern := "set*" }]
        methodOrders := { methods := [("setText(String)", .last), ("init()", .first)] } } "a.Field"]

theorem followsClassModel_after_field :
    (∀ s document layerClass, .layer s document layerClass ∈ fieldSteps →
      s.hierarchy = fieldHierarchy) ∧
    FollowsClassModel fieldHierarchy fieldClass
      ((ofClass (.pure "a.Field") fieldClass).after fieldSteps) ∧
    ((ofClass (.pure "a.Field") fieldClass).after fieldSteps).methods.map
        (fun m ↦ (m.declaringClass, m.signature, m.order?)) =
      [("a.Field", "update()", none), ("a.Field", "setText(String)", some .last)] := by
  have hsteps : ∀ s document layerClass, .layer s document layerClass ∈ fieldSteps →
      s.hierarchy = fieldHierarchy := by
    intro s document layerClass h
    simp only [fieldSteps, List.mem_cons, CompositionStep.layer.injEq, reduceCtorEq, false_or,
      List.not_mem_nil, or_false] at h
    obtain ⟨rfl, -⟩ | ⟨rfl, -⟩ := h
    · rfl
    · rfl
  exact ⟨hsteps, followsClassModel_after hsteps _ fieldClass, by decide +kernel⟩

end Description

end ComponentCatalog
