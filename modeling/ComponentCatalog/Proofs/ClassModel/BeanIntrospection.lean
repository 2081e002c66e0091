import Mathlib.Data.List.Nodup
import ComponentCatalog.Proofs.ClassModel.MethodLookup

/-!
# The properties behind setters

A class has a property of a name if one of its methods is a setter for it, by the rules of
`MethodDecl.Sets`.  Several methods can be: overloads, and methods whose names differ in the case of
one letter.  **The first of them in the order of `Hierarchy.methods` decides alone**: the property
has its signature and the type of its parameter, and the getter has to fit that type and that
spelling of the name (`MethodDecl.Gets`).  Other setters neither add a property nor help to find a
getter.

`BeanProperty.ofHierarchy_introspects` says this of the list that is reported.  It has one property
for each name that there is a setter for, in ascending order, and all have different setters.

The list is put together in a map, which answers for a name with the first property of the name that
was added (`BeanProperty.get?_foldl_addNew`).
-/

set_option autoImplicit false

namespace ComponentCatalog

/-! ## Setters and getters -/

namespace MethodDecl

variable {m : MethodDecl} {suffix typeName name : String} {ms : List MethodDecl}

/-- The method sets something of a type: it takes it as its only parameter, has no result, and its
name is `set` with a suffix. -/
structure Sets (m : MethodDecl) (suffix typeName : String) : Prop where
  name : m.name = "set" ++ suffix
  suffix : suffix ≠ ""
  parameter : m.parameterTypes = [typeName]
  result : m.returnType = "void"

/-- The method sets a property of this name. -/
def IsSetterOf (m : MethodDecl) (name : String) : Prop :=
  ∃ suffix typeName, m.Sets suffix typeName ∧ ClassName.decapitalize suffix = name

/-- The method gets what is set under the suffix and has the type. -/
structure Gets (m : MethodDecl) (suffix typeName : String) : Prop where
  parameters : m.parameterTypes = []
  result : m.returnType = typeName
  name : m.name = "get" ++ suffix ∨ typeName = "boolean" ∧ m.name = "is" ++ suffix

/-- Of the methods that have the property `P`, the first in a list. -/
def IsFirst (P : MethodDecl → Prop) (ms : List MethodDecl) (m : MethodDecl) : Prop :=
  ∃ before after, ms = before ++ m :: after ∧ P m ∧ ∀ k ∈ before, ¬P k

theorem IsFirst.mem {P : MethodDecl → Prop} (h : IsFirst P ms m) : m ∈ ms := by
  obtain ⟨before, after, rfl, -, -⟩ := h
  exact List.mem_append_right _ List.mem_cons_self

theorem IsFirst.holds {P : MethodDecl → Prop} (h : IsFirst P ms m) : P m := by
  obtain ⟨before, after, -, hm, -⟩ := h
  exact hm

theorem isFirst_iff_find? {P : MethodDecl → Prop} {test : MethodDecl → Bool}
    (htest : ∀ k, test k ↔ P k) : IsFirst P ms m ↔ ms.find? test = some m := by
  rw [List.find?_eq_some_iff_append, htest]
  have hbefore : ∀ before : List MethodDecl,
      (∀ k ∈ before, !test k) ↔ ∀ k ∈ before, ¬P k := by
    intro before
    refine forall₂_congr fun k _ ↦ ?_
    rw [← htest, Bool.not_eq_true', Bool.not_eq_true]
  constructor
  · rintro ⟨before, after, hms, hm, hothers⟩
    exact ⟨hm, before, after, hms, (hbefore before).mpr hothers⟩
  · rintro ⟨hm, before, after, hms, hothers⟩
    exact ⟨before, after, hms, hm, (hbefore before).mp hothers⟩

theorem exists_isFirst {P : MethodDecl → Prop} (hm : m ∈ ms) (hP : P m) :
    ∃ k, IsFirst P ms k := by
  classical
  have hsome : (ms.find? (P ·)).isSome := List.find?_isSome.mpr ⟨m, hm, decide_eq_true hP⟩
  obtain ⟨k, hk⟩ := Option.isSome_iff_exists.mp hsome
  exact ⟨k, (isFirst_iff_find? fun _ ↦ decide_eq_true_iff).mpr hk⟩

theorem setterOf?_eq_some_iff :
    m.setterOf? = some (suffix, typeName) ↔ m.Sets suffix typeName := by
  constructor
  · intro h
    rw [setterOf?] at h
    split at h
    · rename_i c cs typeName' hname hparameter
      split at h
      · rename_i hresult
        obtain ⟨rfl, rfl⟩ := Prod.mk.inj (Option.some.inj h)
        refine ⟨String.toList_inj.mp ?_, fun hempty ↦ ?_, hparameter, hresult⟩
        · simp [hname]
        · have hchars := congrArg String.toList hempty
          rw [String.toList_ofList] at hchars
          cases hchars
      · cases h
    · cases h
  · intro h
    obtain ⟨c, cs, hsuffix⟩ : ∃ c cs, suffix.toList = c :: cs :=
      List.exists_cons_of_ne_nil fun hnil ↦ h.suffix (String.toList_inj.mp hnil)
    have hname : m.name.toList = 's' :: 'e' :: 't' :: c :: cs := by
      rw [h.name, String.toList_append, hsuffix]
      rfl
    have hback : String.ofList (c :: cs) = suffix := by rw [← hsuffix, String.ofList_toList]
    rw [setterOf?, hname, h.parameter, ← hback]
    exact if_pos h.result

theorem isGetterOf_iff : m.isGetterOf suffix typeName ↔ m.Gets suffix typeName := by
  rw [isGetterOf]
  simp only [Bool.and_eq_true, Bool.or_eq_true, beq_iff_eq, List.isEmpty_iff]
  exact ⟨fun ⟨⟨hparameters, hresult⟩, hname⟩ ↦ ⟨hparameters, hresult, hname⟩,
    fun h ↦ ⟨⟨h.parameters, h.result⟩, h.name⟩⟩

end MethodDecl

/-! ## Methods by their signatures -/

namespace Hierarchy

theorem methods_eq_firstOfEach (hierarchy : List ClassDecl) :
    methods hierarchy = firstOfEach (·.signature)
      ((hierarchy.flatMap (·.methods)).filter (·.isPublicInstance)) := by
  rw [methods, newMethods_eq]
  exact List.filter_eq_self.mpr fun m _ ↦ rfl

theorem eq_of_signature_eq {hierarchy : List ClassDecl} {m n : MethodDecl}
    (hm : m ∈ methods hierarchy) (hn : n ∈ methods hierarchy) (h : m.signature = n.signature) :
    m = n := by
  rw [methods_eq_firstOfEach, mem_firstOfEach_iff] at hm hn
  rw [h, hn] at hm
  exact (Option.some.inj hm).symm

end Hierarchy

/-! ## The property of one setter -/

namespace BeanProperty

open MethodDecl

variable {p q : BeanProperty} {ms : List MethodDecl} {m : MethodDecl} {suffix name : String}
  {found : NameMap BeanProperty}

/-- The property is the one that the setter `m` sets, `suffix` being the rest of its name; its
getter is the first of `ms`, if there is one among them. -/
structure StandsFor (p : BeanProperty) (ms : List MethodDecl) (m : MethodDecl) (suffix : String) :
    Prop where
  sets : m.Sets suffix p.typeName
  name : ClassName.decapitalize suffix = p.name
  setter : p.setter = m.signature
  getter : (∃ k, IsFirst (·.Gets suffix p.typeName) ms k ∧ p.getter? = some k.name) ∨
    (∀ k ∈ ms, ¬k.Gets suffix p.typeName) ∧ p.getter? = none

theorem exists_standsFor (h : ofMethod? ms m = some p) : ∃ suffix, p.StandsFor ms m suffix := by
  obtain ⟨⟨suffix, typeName⟩, hsetter, rfl⟩ := Option.map_eq_some_iff.mp h
  refine ⟨suffix, setterOf?_eq_some_iff.mp hsetter, rfl, rfl, ?_⟩
  have hgets : ∀ k : MethodDecl, k.isGetterOf suffix typeName ↔ k.Gets suffix typeName :=
    fun k ↦ isGetterOf_iff
  cases hfind : ms.find? (·.isGetterOf suffix typeName) with
  | some k =>
    exact .inl ⟨k, (isFirst_iff_find? hgets).mpr hfind, congrArg (Option.map (·.name)) hfind⟩
  | none =>
    refine .inr ⟨fun k hk hkgets ↦ ?_, congrArg (Option.map (·.name)) hfind⟩
    exact List.find?_eq_none.mp hfind k hk ((hgets k).mpr hkgets)

theorem any_ofMethod?_iff (ms : List MethodDecl) (m : MethodDecl) (name : String) :
    (ofMethod? ms m).any (·.name == name) ↔ m.IsSetterOf name := by
  rw [ofMethod?, Option.any_map, Option.any_eq_true]
  constructor
  · rintro ⟨⟨suffix, typeName⟩, hsetter, hname⟩
    exact ⟨suffix, typeName, setterOf?_eq_some_iff.mp hsetter, by simpa using hname⟩
  · rintro ⟨suffix, typeName, hsets, rfl⟩
    exact ⟨(suffix, typeName), setterOf?_eq_some_iff.mpr hsets, by simp⟩

/-- Of the properties behind methods, the first one of a name is that of the first setter. -/
theorem find?_filterMap_iff :
    (ms.filterMap (ofMethod? ms)).find? (·.name == name) = some p ↔
      ∃ m, IsFirst (·.IsSetterOf name) ms m ∧ ofMethod? ms m = some p := by
  rw [List.find?_filterMap, Option.bind_eq_some_iff]
  simp only [isFirst_iff_find? fun m ↦ any_ofMethod?_iff ms m name]

/-! ## The map of properties -/

/-- The property of a name is the first one that was added. -/
theorem get?_foldl_addNew (found : NameMap BeanProperty) (ps : List BeanProperty) (name : String) :
    (ps.foldl addNew found).get? name = (found.get? name).or (ps.find? (·.name == name)) := by
  induction ps generalizing found with
  | nil => exact (Option.or_none).symm
  | cons p ps ih =>
    rw [List.foldl_cons, ih, List.find?_cons, addNew, NameMap.contains]
    -- A name that is filed keeps its property: `p` counts only where `found` has none.
    by_cases hname : p.name = name
    · cases hfound : found.get? name with
      | some q => simp [hname, hfound]
      | none => simp [hname, hfound]
    · have hbeq : (p.name == name) = false := by simpa using hname
      rw [hbeq]
      split
      · rfl
      · rw [NameMap.get?_insert, if_neg (Ne.symm hname)]

/-- Properties are filed under their own names. -/
def IsFiled (found : NameMap BeanProperty) : Prop :=
  ∀ name p, found.get? name = some p → p.name = name

theorem map_name_values (h : IsFiled found) : found.values.map (·.name) = found.names := by
  rw [NameMap.values, List.map_map]
  exact List.map_congr_left fun e he ↦ h e.1 e.2 ((found.get?_eq_some_iff _ _).mpr he)

theorem mem_values_iff (h : IsFiled found) : p ∈ found.values ↔ found.get? p.name = some p := by
  rw [NameMap.values, List.mem_map, NameMap.get?_eq_some_iff]
  constructor
  · rintro ⟨e, he, rfl⟩
    rwa [h e.1 e.2 ((found.get?_eq_some_iff _ _).mpr he)]
  · exact fun hmem ↦ ⟨(p.name, p), hmem, rfl⟩

/-! ## The list of properties -/

variable {hierarchy : List ClassDecl}

/-- The map from which the properties of a hierarchy are listed. -/
def mapOfHierarchy (hierarchy : List ClassDecl) : NameMap BeanProperty :=
  ((Hierarchy.methods hierarchy).filterMap (ofMethod? (Hierarchy.methods hierarchy))).foldl addNew
    .empty

theorem get?_mapOfHierarchy_iff :
    (mapOfHierarchy hierarchy).get? name = some p ↔
      ∃ m, IsFirst (·.IsSetterOf name) (Hierarchy.methods hierarchy) m ∧
        ofMethod? (Hierarchy.methods hierarchy) m = some p := by
  rw [mapOfHierarchy, get?_foldl_addNew, NameMap.get?_empty, Option.none_or, find?_filterMap_iff]

theorem isFiled_mapOfHierarchy (hierarchy : List ClassDecl) :
    IsFiled (mapOfHierarchy hierarchy) := by
  intro name p h
  rw [mapOfHierarchy, get?_foldl_addNew, NameMap.get?_empty, Option.none_or] at h
  simpa using List.find?_some h

theorem mem_ofHierarchy_iff :
    p ∈ ofHierarchy hierarchy ↔
      ∃ m, IsFirst (·.IsSetterOf p.name) (Hierarchy.methods hierarchy) m ∧
        ofMethod? (Hierarchy.methods hierarchy) m = some p := by
  have hlist : ofHierarchy hierarchy = (mapOfHierarchy hierarchy).values := rfl
  rw [hlist, mem_values_iff (isFiled_mapOfHierarchy hierarchy), get?_mapOfHierarchy_iff]

theorem eq_of_setter_eq (hp : p ∈ ofHierarchy hierarchy) (hq : q ∈ ofHierarchy hierarchy)
    (h : p.setter = q.setter) : p = q := by
  obtain ⟨m, hm, hmp⟩ := mem_ofHierarchy_iff.mp hp
  obtain ⟨n, hn, hnq⟩ := mem_ofHierarchy_iff.mp hq
  obtain ⟨_, hpm⟩ := exists_standsFor hmp
  obtain ⟨_, hqn⟩ := exists_standsFor hnq
  have hsignature : m.signature = n.signature := hpm.setter.symm.trans (h.trans hqn.setter)
  obtain rfl := Hierarchy.eq_of_signature_eq hm.mem hn.mem hsignature
  exact Option.some.inj (hmp.symm.trans hnq)

/-- **What introspection reports.**  The methods are the public ones of instances, the first of each
signature from the class up.  The properties have ascending names and different setters; there is
one for each name that a method sets, and the first such method decides what it is like. -/
theorem ofHierarchy_introspects (hierarchy : List ClassDecl) :
    let ms := Hierarchy.methods hierarchy
    let ps := ofHierarchy hierarchy
    ms = firstOfEach (·.signature)
        ((hierarchy.flatMap (·.methods)).filter (·.isPublicInstance)) ∧
      (ps.map (·.name)).Pairwise (· < ·) ∧
      (ps.map (·.setter)).Nodup ∧
      (∀ name, (∃ p ∈ ps, p.name = name) ↔ ∃ m ∈ ms, m.IsSetterOf name) ∧
      ∀ p ∈ ps, ∃ m suffix, IsFirst (·.IsSetterOf p.name) ms m ∧ p.StandsFor ms m suffix := by
  intro ms ps
  have hnames : (ps.map (·.name)).Pairwise (· < ·) := by
    have hvalues := map_name_values (isFiled_mapOfHierarchy hierarchy)
    exact hvalues ▸ List.pairwise_map.mpr (mapOfHierarchy hierarchy).ascending
  refine ⟨Hierarchy.methods_eq_firstOfEach hierarchy, hnames, ?_, fun name ↦ ?_, fun p hp ↦ ?_⟩
  · -- Two properties with one setter come from one method, as no signature is listed twice.
    have hnodup : ps.Nodup := .of_map _ (hnames.imp fun {a b} hlt heq ↦ ?_)
    · exact hnodup.map_on fun p hp q hq ↦ eq_of_setter_eq hp hq
    · exact String.lt_irrefl b (heq ▸ hlt)
  · constructor
    · rintro ⟨p, hp, rfl⟩
      obtain ⟨m, hfirst, -⟩ := mem_ofHierarchy_iff.mp hp
      exact ⟨m, hfirst.mem, hfirst.holds⟩
    · rintro ⟨n, hn, hsets⟩
      obtain ⟨m, hfirst⟩ := exists_isFirst (P := (·.IsSetterOf name)) hn hsets
      have hany := (any_ofMethod?_iff ms m name).mpr hfirst.holds
      obtain ⟨p, hp, hname⟩ := (Option.any_eq_true _ _).mp hany
      obtain rfl : p.name = name := by simpa using hname
      exact ⟨p, mem_ofHierarchy_iff.mpr ⟨m, hfirst, hp⟩, rfl⟩
  · obtain ⟨m, hfirst, hm⟩ := mem_ofHierarchy_iff.mp hp
    obtain ⟨suffix, hstands⟩ := exists_standsFor hm
    exact ⟨m, suffix, hfirst, hstands⟩

/-! A button has two setters for its text, with different types.  Its superclass has a setter of the
same name but for the capital, and the getter for what the first one sets. -/

def buttonHierarchy : List ClassDecl :=
  [((ClassDecl.ofName "a.Button").withMethod "setText" ["java.lang.String"] "void").withMethod
      "setText" ["int"] "void",
    ((ClassDecl.ofName "a.Widget").withMethod "settext" ["int"] "void").withMethod "getText" []
      "java.lang.String"]

def textOfButton : BeanProperty :=
  { name := "text"
    typeName := "java.lang.String"
    setter := "setText(java.lang.String)"
    getter? := some "getText" }

theorem ofHierarchy_introspects_button :
    ofHierarchy buttonHierarchy = [textOfButton] ∧ ∃ m suffix,
      IsFirst (·.IsSetterOf "text") (Hierarchy.methods buttonHierarchy) m ∧
        textOfButton.StandsFor (Hierarchy.methods buttonHierarchy) m suffix := by
  obtain ⟨-, -, -, -, hstands⟩ := ofHierarchy_introspects buttonHierarchy
  have hlist : ofHierarchy buttonHierarchy = [textOfButton] := by decide +kernel
  exact ⟨hlist, hstands textOfButton (hlist ▸ List.mem_singleton_self _)⟩

end BeanProperty

end ComponentCatalog
