import Mathlib.Data.List.Chain
import Mathlib.Data.List.TakeWhile
import Mathlib.Logic.Relation
import ComponentCatalog.ClassModel.Hierarchy

/-!
# The class that stands for a class

Metadata cannot name an anonymous class, so its superclass stands for it, or the first class further
up that metadata can name.  `ClassPath.LeadsTo` says which class that is, without the walk: the
classes before it on the chain of superclasses are passed over, and it is not.

**The walk finds that class** wherever there is one to find (`ClassPath.normalize_leadsTo`): the
chain of superclasses ends and the superclasses that it follows are there.  The class that is found
stands for itself.

A class counts as anonymous by its **first** dollar sign, so one that is nested in a nested class is
not passed over (`ClassName.isAnonymous_iff`, `ClassPath.normalize_nested`).

That the chain ends is accessibility along `ClassPath.IsSuperclass`; with it, the names that the walk
has seen are those of classes below, and the walk never comes back to one of them.
-/

set_option autoImplicit false

namespace ComponentCatalog

open Relation

/-! ## Anonymous names -/

namespace ClassName

/-- What follows the last dollar sign of the name is a number: a number has no dollar sign. -/
def EndsInNumber (name : String) : Prop :=
  ∃ outer number, name.toList = outer ++ '$' :: number ∧ number ≠ [] ∧ ∀ c ∈ number, c.isDigit

theorem dollar_not_mem_of_digits {cs : List Char} (h : ∀ c ∈ cs, c.isDigit) : '$' ∉ cs :=
  fun hmem ↦ absurd (h '$' hmem) (by decide)

/-- The name of an anonymous class ends in a number, and has no other dollar sign than the one
before it. -/
theorem isAnonymous_iff (name : String) :
    isAnonymous name ↔ EndsInNumber name ∧ name.toList.count '$' = 1 := by
  rw [isAnonymous, EndsInNumber]
  generalize name.toList = cs
  constructor
  · intro h
    split at h
    · cases h
    · rename_i dollar number hdrop
      obtain ⟨hne, hdigits⟩ : number ≠ [] ∧ ∀ c ∈ number, c.isDigit := by simpa using h
      have hdollar : dollar = '$' := by
        have hhead := List.head?_dropWhile_not (· != '$') cs
        rw [hdrop] at hhead
        simpa using hhead
      have hbefore : '$' ∉ cs.takeWhile (· != '$') := fun hmem ↦ by
        simpa using List.mem_takeWhile_imp hmem
      have hcs : cs = cs.takeWhile (· != '$') ++ '$' :: number := by
        rw [hdollar] at hdrop
        rw [← hdrop, List.takeWhile_append_dropWhile]
      refine ⟨⟨_, number, hcs, hne, hdigits⟩, ?_⟩
      rw [hcs, List.count_append, List.count_cons_self, List.count_eq_zero_of_not_mem hbefore,
        List.count_eq_zero_of_not_mem (dollar_not_mem_of_digits hdigits)]
  · rintro ⟨⟨outer, number, rfl, hne, hdigits⟩, hcount⟩
    have houter : '$' ∉ outer := by
      rw [List.count_append, List.count_cons_self] at hcount
      exact List.count_eq_zero.mp (by omega)
    have hbefore : ∀ c ∈ outer, (c != '$') = true := by
      intro c hc
      rw [bne_iff_ne]
      rintro rfl
      exact houter hc
    rw [List.dropWhile_append_of_pos hbefore]
    simpa using ⟨hne, hdigits⟩

end ClassName

/-! ## Classes that are passed over -/

namespace ClassDecl

/-- Metadata can name the class, or there is no other one that it could name instead. -/
def StandsForItself (c : ClassDecl) : Prop :=
  c.isNameless = false ∨ c.superclass? = none

/-- The class is anonymous, implements no interface, and has a superclass to stand for it. -/
structure PassedOver (c : ClassDecl) : Prop where
  interfaces : c.interfaces = []
  number : ClassName.EndsInNumber c.name
  oneDollar : c.name.toList.count '$' = 1
  superclass : c.superclass? ≠ none

theorem passedOver_iff {c : ClassDecl} :
    c.PassedOver ↔ c.isNameless = true ∧ ∃ parent, c.superclass? = some parent := by
  rw [isNameless, Bool.and_eq_true, List.isEmpty_iff, ClassName.isAnonymous_iff,
    ← Option.ne_none_iff_exists']
  exact ⟨fun h ↦ ⟨⟨h.interfaces, h.number, h.oneDollar⟩, h.superclass⟩,
    fun ⟨⟨hinterfaces, hnumber, hdollar⟩, hsuper⟩ ↦ ⟨hinterfaces, hnumber, hdollar, hsuper⟩⟩

theorem standsForItself_iff {c : ClassDecl} : c.StandsForItself ↔ ¬c.PassedOver := by
  rw [StandsForItself, passedOver_iff, ← Option.ne_none_iff_exists', not_and_or, not_not,
    Bool.not_eq_true]

end ClassDecl

/-! ## One step -/

namespace ClassPath

variable {cp : ClassPath} {start : String} {seen : List String} {c next named : ClassDecl}
  {skipped : List ClassDecl}

theorem namedFrom_of_not_isNameless (h : c.isNameless = false) :
    cp.namedFrom start seen c = .ok c := by
  rw [namedFrom, h]
  rfl

theorem namedFrom_of_superclass?_eq_none (h : c.superclass? = none) :
    cp.namedFrom start seen c = .ok c := by
  rw [namedFrom]
  split
  · split
    · rfl
    · rename_i parent hparent
      rw [h] at hparent
      cases hparent
  · rfl

theorem namedFrom_of_standsForItself (h : c.StandsForItself) :
    cp.namedFrom start seen c = .ok c := by
  rcases h with h | h
  · exact namedFrom_of_not_isNameless h
  · exact namedFrom_of_superclass?_eq_none h

theorem namedFrom_of_isNameless {parent : String} (h : c.isNameless)
    (hparent : c.superclass? = some parent) (hnew : parent ∉ seen)
    (hfind : cp.find? parent = some next) :
    cp.namedFrom start seen c = cp.namedFrom start (parent :: seen) next := by
  rw [namedFrom, if_pos h]
  split
  · rename_i hroot
    rw [hparent] at hroot
    cases hroot
  · rename_i p hp
    obtain rfl := Option.some.inj (hparent.symm.trans hp)
    rw [dif_neg hnew]
    split
    · rename_i hnone
      rw [hfind] at hnone
      cases hnone
    · rename_i found hfound
      obtain rfl := Option.some.inj (hfind.symm.trans hfound)
      rfl

theorem find?_of_namedFrom (hc : cp.find? c.name = some c)
    (h : cp.namedFrom start seen c = .ok named) : cp.find? named.name = some named := by
  fun_induction cp.namedFrom start seen c with
  | case1 seen c hnameless hroot =>
    obtain rfl := Except.ok.inj h
    exact hc
  | case2 => cases h
  | case3 => cases h
  | case4 seen c hnameless parent hparent hnew next hnext ih =>
    refine ih ?_ h
    rwa [cp.name_eq parent next hnext]
  | case5 seen c hnamed =>
    obtain rfl := Except.ok.inj h
    exact hc

theorem find?_of_normalize (hc : cp.find? c.name = some c) (h : cp.normalize c = .ok named) :
    cp.find? named.name = some named :=
  find?_of_namedFrom hc h

/-! ## The walk -/

/-- The class path has `next` under the name of the superclass of `c`. -/
def IsSuperclass (cp : ClassPath) (next c : ClassDecl) : Prop :=
  ∃ parent, c.superclass? = some parent ∧ cp.find? parent = some next

/-- The walk goes from a class that is passed over to its superclass. -/
def Follows (cp : ClassPath) (c next : ClassDecl) : Prop := c.PassedOver ∧ cp.IsSuperclass next c

/-- On the chain of superclasses from `c`, the first class that is not passed over is `named`, and
`skipped` are those before it. -/
structure LeadsTo (cp : ClassPath) (c : ClassDecl) (skipped : List ClassDecl) (named : ClassDecl) :
    Prop where
  start : (skipped ++ [named]).head? = some c
  chain : (skipped ++ [named]).IsChain fun k next ↦ cp.IsSuperclass next k
  passedOver : ∀ k ∈ skipped, k.PassedOver
  named : ¬named.PassedOver

theorem leadsTo_self (h : ¬c.PassedOver) : cp.LeadsTo c [] c where
  start := rfl
  chain := List.isChain_singleton c
  passedOver := List.forall_mem_nil _
  named := h

theorem LeadsTo.cons (h : cp.LeadsTo next skipped named) (hc : c.PassedOver)
    (hnext : cp.IsSuperclass next c) : cp.LeadsTo c (c :: skipped) named where
  start := rfl
  chain := by
    rw [List.cons_append, List.isChain_cons]
    refine ⟨fun k hk ↦ ?_, h.chain⟩
    obtain rfl := Option.some.inj (h.start.symm.trans hk)
    exact hnext
  passedOver := List.forall_mem_cons.mpr ⟨hc, h.passedOver⟩
  named := h.named

/-- A chain that ends does not come back to where it started. -/
theorem not_transGen_self {α : Type} {r : α → α → Prop} {a : α} (h : Acc r a) :
    ¬TransGen r a a := by
  have hacc := h.transGen
  clear h
  induction hacc with
  | intro a _ ih => exact fun ha ↦ ih a ha ha

/-- The walk from any class, if the names that were seen are those of classes at or below it. -/
theorem exists_leadsTo (hfinite : Acc cp.IsSuperclass c)
    (hloads : ∀ k, ReflTransGen cp.Follows c k → k.PassedOver → ∃ next, cp.IsSuperclass next k)
    (hseen : ∀ name ∈ seen, ∀ k, cp.find? name = some k → ReflTransGen cp.IsSuperclass c k) :
    ∃ skipped named, cp.namedFrom start seen c = .ok named ∧ cp.LeadsTo c skipped named := by
  induction hfinite generalizing seen with
  | intro c hsupers ih =>
    by_cases hc : c.PassedOver
    · obtain ⟨next, hnext⟩ := hloads c .refl hc
      obtain ⟨parent, hparent, hfind⟩ := id hnext
      -- A superclass that was seen before is a class below, and the chain would come back to it.
      have hnew : parent ∉ seen := fun hmem ↦
        not_transGen_self (.intro c hsupers) (.tail' (hseen parent hmem next hfind) hnext)
      have hseen' : ∀ name ∈ parent :: seen, ∀ k, cp.find? name = some k →
          ReflTransGen cp.IsSuperclass next k := by
        refine List.forall_mem_cons.mpr ⟨fun k hk ↦ ?_, fun name hmem k hk ↦ ?_⟩
        · obtain rfl := Option.some.inj (hfind.symm.trans hk)
          exact .refl
        · exact .head hnext (hseen name hmem k hk)
      obtain ⟨skipped, named, hnamed, hleads⟩ :=
        ih next hnext (fun k hk ↦ hloads k (.head ⟨hc, hnext⟩ hk)) hseen'
      refine ⟨c :: skipped, named, ?_, hleads.cons hc hnext⟩
      rw [namedFrom_of_isNameless (ClassDecl.passedOver_iff.mp hc).1 hparent hnew hfind, hnamed]
    · exact ⟨[], c, namedFrom_of_standsForItself (ClassDecl.standsForItself_iff.mpr hc),
        leadsTo_self hc⟩

/-- **The class that stands for a class** is the first one on its chain of superclasses that is not
passed over, and it stands for itself. -/
theorem normalize_leadsTo (hfinite : Acc cp.IsSuperclass c)
    (hloads : ∀ k, ReflTransGen cp.Follows c k → k.PassedOver → ∃ next, cp.IsSuperclass next k) :
    ∃ skipped named, cp.normalize c = .ok named ∧ cp.LeadsTo c skipped named ∧
      cp.normalize named = .ok named := by
  have hnone : ∀ name ∈ ([] : List String), ∀ k, cp.find? name = some k →
      ReflTransGen cp.IsSuperclass c k := List.forall_mem_nil _
  obtain ⟨skipped, named, (hnamed : cp.normalize c = .ok named), hleads⟩ :=
    exists_leadsTo hfinite hloads hnone
  exact ⟨skipped, named, hnamed, hleads,
    namedFrom_of_standsForItself (ClassDecl.standsForItself_iff.mpr hleads.named)⟩

/-! Two anonymous classes on the way to a button, and one that is nested in a nested class. -/

def buttonClass : ClassDecl := { name := "a.Button" }

def formClass : ClassDecl := { name := "a.Form$1", superclass? := some "a.Button" }

def innerFormClass : ClassDecl := { name := "a.Form$2", superclass? := some "a.Form$1" }

def nestedFormClass : ClassDecl := { name := "a.Form$Inner$1", superclass? := some "a.Button" }

def formClasses : ClassPath :=
  empty.addAll [buttonClass, formClass, innerFormClass, nestedFormClass]

theorem IsSuperclass.unique {k : ClassDecl} (hnext : cp.IsSuperclass next c)
    (hk : cp.IsSuperclass k c) : k = next := by
  obtain ⟨parent, hparent, hnext⟩ := hnext
  obtain ⟨_, hparent', hk⟩ := hk
  obtain rfl := Option.some.inj (hparent.symm.trans hparent')
  exact Option.some.inj (hk.symm.trans hnext)

theorem IsSuperclass.acc (hnext : cp.IsSuperclass next c) (h : Acc cp.IsSuperclass next) :
    Acc cp.IsSuperclass c :=
  .intro c fun _ hk ↦ hnext.unique hk ▸ h

theorem acc_of_superclass?_eq_none (h : c.superclass? = none) : Acc cp.IsSuperclass c := by
  refine .intro c fun k ⟨parent, hparent, _⟩ ↦ ?_
  rw [h] at hparent
  cases hparent

theorem normalize_leadsTo_button :
    ∃ skipped, formClasses.normalize innerFormClass = .ok buttonClass ∧
      formClasses.LeadsTo innerFormClass skipped buttonClass := by
  have hform : formClasses.IsSuperclass formClass innerFormClass := ⟨"a.Form$1", rfl, rfl⟩
  have hbutton : formClasses.IsSuperclass buttonClass formClass := ⟨"a.Button", rfl, rfl⟩
  have hfinite : Acc formClasses.IsSuperclass innerFormClass :=
    hform.acc (hbutton.acc (acc_of_superclass?_eq_none rfl))
  have hloads : ∀ k, ReflTransGen formClasses.Follows innerFormClass k → k.PassedOver →
      ∃ next, formClasses.IsSuperclass next k := by
    intro k hk hpassed
    obtain rfl | ⟨next, ⟨-, hnext⟩, hk⟩ := hk.cases_head
    · exact ⟨_, hform⟩
    · obtain rfl := hform.unique hnext
      obtain rfl | ⟨next, ⟨-, hnext⟩, hk⟩ := hk.cases_head
      · exact ⟨_, hbutton⟩
      · obtain rfl := hbutton.unique hnext
        obtain rfl | ⟨next, ⟨hbutton, -⟩, -⟩ := hk.cases_head
        · exact absurd rfl hpassed.superclass
        · exact absurd rfl hbutton.superclass
  obtain ⟨skipped, named, hnamed, hleads, -⟩ := normalize_leadsTo hfinite hloads
  have hwalk : formClasses.normalize innerFormClass = .ok buttonClass := by
    rw [normalize, namedFrom_of_isNameless (by decide) rfl (by decide) rfl,
      namedFrom_of_isNameless (by decide) rfl (by decide) rfl]
    exact namedFrom_of_superclass?_eq_none rfl
  obtain rfl := Except.ok.inj (hwalk.symm.trans hnamed)
  exact ⟨skipped, hwalk, hleads⟩

/-- The nested class is not passed over, though what follows its last dollar sign is a number and
its superclass could stand for it. -/
theorem normalize_nested :
    ClassName.EndsInNumber nestedFormClass.name ∧ nestedFormClass.interfaces = [] ∧
      formClasses.IsSuperclass buttonClass nestedFormClass ∧
      formClasses.normalize nestedFormClass = .ok nestedFormClass := by
  have hnumber : ∀ c ∈ ['1'], c.isDigit := List.forall_mem_singleton.mpr rfl
  exact ⟨⟨"a.Form$Inner".toList, ['1'], by decide, List.cons_ne_nil _ _, hnumber⟩, rfl,
    ⟨"a.Button", rfl, rfl⟩, namedFrom_of_not_isNameless (by decide)⟩

end ClassPath

end ComponentCatalog
