import Mathlib.Logic.Relation
import ComponentCatalog.Composition.Layer
import ComponentCatalog.Proofs.ClassModel.MethodLookup

/-!
# The steps of a layer

What a layer says of properties, constructors and methods is applied in small steps, and
`Description.MemberStep` lists all that one of them can do, with what is known when it is done.

**The parts of a layer go by such steps**, whether or not they fail half-way (`Change.Follows`).  So
what every step keeps, every layer keeps, and an invariant is shown step by step and not change by
change.  The first one is the frame: steps touch members and nothing else
(`Description.withoutMembers`), so a layer that succeeds leaves all else as its head made it
(`LayerDocument.withoutMembers_of_apply`).
-/

set_option autoImplicit false

namespace ComponentCatalog

open Relation

universe u

/-! ## Changes that follow a relation -/

namespace Change

/-- Whatever the change leaves, failed or not, is reached by steps of `R`. -/
def Follows (R : Description → Description → Prop) (c : Change) : Prop :=
  ∀ d, ReflTransGen R d (c d).1

variable {R : Description → Description → Prop}

/-- So what a change leaves is reached by steps, also where the change is known by its outcome. -/
theorem Follows.reaches {c : Change} {d e : Description} {failure? : Option Failure}
    (h : c.Follows R) (hc : c d = (e, failure?)) : ReflTransGen R d e := by
  have hd := h d
  rwa [hc] at hd

theorem follows_of {f : Description → Description} (h : ∀ d, ReflTransGen R d (f d)) :
    (Change.of f).Follows R := h

theorem follows_skip : skip.Follows R := fun _ ↦ .refl

/-- If the first change fails, the second one is not made, and what is left is what the first one
reached. -/
theorem Follows.andThen {first second : Change} (h₁ : first.Follows R) (h₂ : second.Follows R) :
    (first.andThen second).Follows R := by
  intro d
  have hfirst := h₁ d
  rw [Change.andThen]
  rcases heq : first d with ⟨e, _ | f⟩ <;> rw [heq] at hfirst
  · exact hfirst.trans (h₂ e)
  · exact hfirst

/-- Changes one after the other, up to the first failure. -/
theorem Follows.each {α : Type u} {l : List α} {change : α → Change}
    (h : ∀ a ∈ l, (change a).Follows R) : (each l change).Follows R := by
  induction l with
  | nil => exact follows_skip
  | cons a rest ih =>
    have hrest := ih fun b hb ↦ h b (List.mem_cons_of_mem _ hb)
    exact (h a List.mem_cons_self).andThen hrest

/-- To refuse a member, or to pass over it, changes nothing. -/
theorem follows_unknownMember (s : Setting) (message : String) :
    (s.unknownMember message).Follows R := by
  intro d
  rw [Setting.unknownMember]
  split <;> exact .refl

/-! ## Changes that succeed -/

theorem result_eq_ok_iff {c : Change} {d e : Description} :
    c.result d = .ok e ↔ c d = (e, none) := by
  rw [result]
  rcases c d with ⟨e', _ | f⟩ <;> simp

/-- Two changes succeed if one does after the other. -/
theorem andThen_eq_none_iff {first second : Change} {d e : Description} :
    first.andThen second d = (e, none) ↔ ∃ m, first d = (m, none) ∧ second m = (e, none) := by
  rw [andThen]
  rcases first d with ⟨m, _ | f⟩ <;> simp

end Change

/-! ## Members of the class model -/

/-- The hierarchy has a class of this name that declares the method for everyone to call. -/
def Setting.Declares (s : Setting) (className : String) (m : MethodDecl) : Prop :=
  ∃ c ∈ s.hierarchy, c.name = className ∧ m ∈ c.methods ∧ m.isPublicInstance

/-- What is listed is declared, since the list is made of the methods of all classes. -/
theorem Setting.declares_of_mem_publicMethods {s : Setting} {className : String} {m : MethodDecl}
    (h : (className, m) ∈ Hierarchy.publicMethods s.hierarchy) : s.Declares className m := by
  have hfirst := List.mem_of_find?_eq_some (mem_firstOfEach_iff.mp h)
  obtain ⟨h, hpublic⟩ := List.mem_filter.mp hfirst
  obtain ⟨c, hc, h⟩ := List.mem_flatMap.mp h
  obtain ⟨m', hm, heq⟩ := List.mem_map.mp h
  obtain ⟨rfl, rfl⟩ := Prod.mk.inj heq
  exact ⟨c, hc, rfl, hm, hpublic⟩

/-- What is looked up is declared, with the very signature that was looked for. -/
theorem Setting.declares_of_findMethod? {s : Setting} {signature className : String}
    {m : MethodDecl} (h : Hierarchy.findMethod? s.hierarchy signature = some (className, m)) :
    s.Declares className m ∧ m.signature = signature := by
  obtain ⟨c, hc, h⟩ := List.exists_of_findSome?_eq_some h
  obtain ⟨m', hm, heq⟩ := Option.map_eq_some_iff.mp h
  obtain ⟨rfl, rfl⟩ := Prod.mk.inj heq
  obtain ⟨hfind, hpublic⟩ := Option.filter_eq_some_iff.mp hm
  exact ⟨⟨c, hc, rfl, List.mem_of_find?_eq_some hfind, hpublic⟩,
    by simpa using List.find?_some hfind⟩

/-- Whatever the numbers are, the types are the given ones. -/
theorem Parameter.map_typeName_ofTypesFrom (types : List String) :
    ∀ index, (ofTypesFrom index types).map (·.typeName) = types := by
  induction types with
  | nil => exact fun _ ↦ rfl
  | cons t types ih => exact fun index ↦ congrArg (t :: ·) (ih (index + 1))

@[simp] theorem Method.signature_ofDecl (className : String) (m : MethodDecl) :
    (ofDecl className m).signature = m.signature := by
  rw [Method.signature, MethodDecl.signature, ofDecl, Parameter.ofTypes,
    Parameter.map_typeName_ofTypesFrom]

/-! ## Steps -/

namespace Description

/-- One step of applying what a layer says of members. -/
inductive MemberStep (s : Setting) : Description → Description → Prop
  /-- A property is added, or put in place of the one with its identifier. -/
  | property (d : Description) (p : Property) : MemberStep s d (d.addProperty p)
  /-- An override is applied to its property, or waits for it. -/
  | override (d : Description) (o : PropertyOverride) : MemberStep s d (d.configure o)
  /-- A constructor is enriched. -/
  | constructor (d : Description) (n : ConstructorNote) :
      MemberStep s d (d.updateConstructor n.signature (·.enrich n.parameters))
  /-- A method of the hierarchy is added, of whose signature there is none. -/
  | newMethod (d : Description) (className : String) (m : MethodDecl)
      (declared : s.Declares className m) (new : d.method? m.signature = none) :
      MemberStep s d (d.addMethod (.ofDecl className m))
  /-- A method is annotated. -/
  | annotate (d : Description) (n : MethodNote) :
      MemberStep s d (d.updateMethod n.signature (·.annotate n))
  /-- A method is given an order. -/
  | order (d : Description) (signature : String) (order : MethodOrder) :
      MemberStep s d (d.updateMethod signature ({ · with order? := some order }))
  /-- The methods that match a pattern are dropped. -/
  | exclude (d : Description) (pattern : String) :
      MemberStep s d
        { d with methods := d.methods.filter fun m ↦ !Wildcard.accepts pattern m.signature }

/-- The description without what steps can touch. -/
def withoutMembers (d : Description) : Description :=
  { d with table := {}, constructors := [], methods := [] }

/-- **The frame of a step**, by cases. -/
theorem MemberStep.withoutMembers_eq {s : Setting} {d e : Description} (h : MemberStep s d e) :
    e.withoutMembers = d.withoutMembers := by
  cases h <;> rfl

/-- Steps leave everything but members alone. -/
theorem withoutMembers_eq_of_memberSteps {s : Setting} {d e : Description}
    (h : ReflTransGen (MemberStep s) d e) : e.withoutMembers = d.withoutMembers := by
  induction h with
  | refl => rfl
  | tail _ hstep ih => exact hstep.withoutMembers_eq.trans ih

end Description

/-! ## Layers are made of steps -/

variable (s : Setting)

open Description

/-- A method that is not there yet is added from the hierarchy before it is changed, which makes two
steps; if the hierarchy does not have it, there is none. -/
theorem Setting.withMethod_follows {signature message : String}
    {change : Description → Description} (h : ∀ d, MemberStep s d (change d)) :
    (s.withMethod signature message change).Follows (MemberStep s) := by
  intro d
  rw [Setting.withMethod]
  split
  · exact .single (h d)
  · rename_i hnone
    split
    · rename_i className m hfind
      obtain ⟨hdecl, rfl⟩ := Setting.declares_of_findMethod? hfind
      exact (ReflTransGen.single
        (.newMethod d className m hdecl (by simpa using hnone))).tail (h _)
    · exact Change.follows_unknownMember s message d

theorem ConstructorNote.apply_follows (n : ConstructorNote) :
    (n.apply s).Follows (MemberStep s) := by
  intro d
  rw [ConstructorNote.apply]
  split
  · exact .single (.constructor d n)
  · exact Change.follows_unknownMember s _ d

theorem MethodNote.apply_follows (n : MethodNote) : (n.apply s).Follows (MemberStep s) :=
  s.withMethod_follows fun d ↦ .annotate d n

theorem MethodOrder.applyTo_follows (order : MethodOrder) (signature : String) :
    (order.applyTo s signature).Follows (MemberStep s) :=
  s.withMethod_follows fun d ↦ .order d signature order

/-- Methods of the hierarchy are added one after the other. -/
theorem Description.addNewMethods_memberSteps {ms : List Method}
    (h : ∀ m ∈ ms, ∃ className decl, s.Declares className decl ∧ m = .ofDecl className decl) :
    ∀ d, ReflTransGen (MemberStep s) d (ms.foldl addNewMethod d) := by
  induction ms with
  | nil => exact fun _ ↦ .refl
  | cons m ms ih =>
    intro d
    have hrest := ih (fun m' hm' ↦ h m' (List.mem_cons_of_mem _ hm')) (d.addNewMethod m)
    obtain ⟨className, decl, hdecl, rfl⟩ := h m List.mem_cons_self
    refine ReflTransGen.trans ?_ hrest
    rw [addNewMethod]
    split
    · exact .refl
    · rename_i hnone
      exact .single (.newMethod d className decl hdecl (by simpa using hnone))

/-- The methods that an inclusion adds are those that the class model lists. -/
theorem MethodOperation.mem_matched {s : Setting} {o : MethodOperation} {m : Method}
    (h : m ∈ o.matched s) :
    ∃ className decl, s.Declares className decl ∧ m = .ofDecl className decl := by
  obtain ⟨⟨className, decl⟩, hmem, rfl⟩ := List.mem_map.mp h
  exact ⟨className, decl, Setting.declares_of_mem_publicMethods (List.mem_filter.mp hmem).1, rfl⟩

/-- An inclusion adds methods and may then complain that there are none; an exclusion is a step. -/
theorem MethodOperation.apply_follows (o : MethodOperation) :
    (o.apply s).Follows (MemberStep s) := by
  intro d
  rw [MethodOperation.apply]
  split
  · have hadd := addNewMethods_memberSteps s (fun _ ↦ mem_matched (o := o)) d
    dsimp only
    split
    · exact hadd.trans (Change.follows_unknownMember s _ _)
    · exact hadd
  · exact .single (.exclude d o.pattern)

/-- Properties that are there already are passed over, the others take a step each. -/
theorem Description.addNewProperties_memberSteps (ps : List Property) :
    ∀ d : Description, ReflTransGen (MemberStep s) d (d.addNewProperties ps) := by
  induction ps with
  | nil => exact fun _ ↦ .refl
  | cons p ps ih =>
    intro d
    refine ReflTransGen.trans ?_ (ih (d.addNewProperty p))
    rw [addNewProperty]
    split
    · exact .refl
    · exact .single (.property d p)

/-- A property made of a method takes a step, and another one if the layer sets something for it. -/
theorem MethodProperty.apply_follows (p : MethodProperty) :
    (p.apply s).Follows (MemberStep s) := by
  intro d
  rw [MethodProperty.apply]
  split
  · exact Change.follows_unknownMember s _ d
  · rename_i m _
    split
    · exact .refl
    · have hadd := ReflTransGen.single (MemberStep.property (s := s) d (p.toProperty m))
      dsimp only
      split
      · exact hadd.tail (.override _ _)
      · exact hadd

namespace LayerDocument

variable (layer : LayerDocument)

/-- Bean properties come first, then fields, each only if the layer asks for them. -/
theorem addClassProperties_memberSteps (d : Description) :
    ReflTransGen (MemberStep s) d (layer.addClassProperties s d) := by
  rw [addClassProperties]
  have hbeans : ReflTransGen (MemberStep s) d (if layer.beanProperties then
      d.addNewProperties ((BeanProperty.ofHierarchy s.hierarchy).map (·.toProperty)) else d) := by
    split
    · exact addNewProperties_memberSteps s _ d
    · exact .refl
  split
  · exact hbeans.trans (addNewProperties_memberSteps s _ _)
  · exact hbeans

theorem foldl_memberSteps {α : Type u} {step : Description → α → Description}
    (h : ∀ d a, MemberStep s d (step d a)) (l : List α) :
    ∀ d, ReflTransGen (MemberStep s) d (l.foldl step d) := by
  induction l with
  | nil => exact fun _ ↦ .refl
  | cons a l ih => exact fun d ↦ (ih (step d a)).head (h d a)

theorem applyProperties_follows : (layer.applyProperties s).Follows (MemberStep s) := by
  refine (Change.follows_of (layer.addClassProperties_memberSteps s)).andThen ?_
  refine (Change.Follows.each fun p _ ↦ p.apply_follows s).andThen (Change.follows_of fun d ↦ ?_)
  exact (foldl_memberSteps s (fun d p ↦ .property d p) _ d).trans
    (foldl_memberSteps s (fun d o ↦ .override d o) _ _)

theorem applyConstructors_follows : (layer.applyConstructors s).Follows (MemberStep s) :=
  Change.Follows.each fun n _ ↦ n.apply_follows s

theorem applyNotes_follows : (Change.each layer.methods (·.apply s)).Follows (MemberStep s) :=
  Change.Follows.each fun n _ ↦ n.apply_follows s

theorem applyOperations_follows :
    (Change.each layer.methodOperations (·.apply s)).Follows (MemberStep s) :=
  Change.Follows.each fun o _ ↦ o.apply_follows s

theorem applyOrders_follows :
    (Change.each layer.methodOrders.methods fun (signature, order) ↦
      order.applyTo s signature).Follows (MemberStep s) :=
  Change.Follows.each fun o _ ↦ o.2.applyTo_follows s o.1

/-- The notes and operations of a layer on methods come first, then the order of methods without
one of their own, then the orders of single methods. -/
theorem memberSteps_of_applyMethods {d e : Description}
    (h : layer.applyMethods s d = (e, none)) :
    ∃ m : Description, ReflTransGen (MemberStep s) d m ∧
      ReflTransGen (MemberStep s)
        { m with
          defaultMethodOrder? := layer.methodOrders.default?.or m.defaultMethodOrder? } e := by
  obtain ⟨d₁, hnotes, h⟩ := Change.andThen_eq_none_iff.mp h
  obtain ⟨d₂, hoperations, h⟩ := Change.andThen_eq_none_iff.mp h
  obtain ⟨d₃, hdefault, horders⟩ := Change.andThen_eq_none_iff.mp h
  obtain ⟨rfl, -⟩ := Prod.mk.inj hdefault
  have hnotes := (layer.applyNotes_follows s).reaches hnotes
  have hoperations := (layer.applyOperations_follows s).reaches hoperations
  exact ⟨d₂, hnotes.trans hoperations, (layer.applyOrders_follows s).reaches horders⟩

/-- **The frame of a layer**: beyond members it leaves what its head and its default order make. -/
theorem withoutMembers_of_apply {layerClass : String} {d e : Description}
    (h : layer.apply s layerClass d = (e, none)) :
    e.withoutMembers =
      { (layer.applyHead s layerClass d).withoutMembers with
        defaultMethodOrder? := layer.methodOrders.default?.or d.defaultMethodOrder? } := by
  obtain ⟨d₁, hhead, h⟩ := Change.andThen_eq_none_iff.mp h
  obtain ⟨d₂, hproperties, h⟩ := Change.andThen_eq_none_iff.mp h
  obtain ⟨d₃, hconstructors, hmethods⟩ := Change.andThen_eq_none_iff.mp h
  obtain ⟨rfl, -⟩ := Prod.mk.inj hhead
  obtain ⟨m, hbefore, hafter⟩ := layer.memberSteps_of_applyMethods s hmethods
  have hproperties := (layer.applyProperties_follows s).reaches hproperties
  have hconstructors := (layer.applyConstructors_follows s).reaches hconstructors
  have hm : m.withoutMembers = (layer.applyHead s layerClass d).withoutMembers :=
    withoutMembers_eq_of_memberSteps (hproperties.trans (hconstructors.trans hbefore))
  have horder : m.defaultMethodOrder? = d.defaultMethodOrder? :=
    (congrArg defaultMethodOrder? hm :)
  rw [withoutMembers_eq_of_memberSteps hafter, ← hm, ← horder]
  rfl

end LayerDocument

end ComponentCatalog
