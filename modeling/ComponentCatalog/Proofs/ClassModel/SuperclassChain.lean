import Mathlib.Data.List.Nodup
import Mathlib.Data.List.Perm.Subperm
import ComponentCatalog.Proofs.ClassModel.Normalization
import ComponentCatalog.Resource.Layer

/-!
# The chain of superclasses

`ClassPath.hierarchy` follows superclasses from a class, which need not be on the class path itself.
`ClassPath.Climbs` says how far it comes: past classes that were loaded one after the other, each
for the superclass of the one before, and no two of which have the same name.  As those classes are
all on the class path, **the walk ends** (`ClassPath.Climbs.length_le`), in one of three ways:

* at a class without a superclass, and then the classes on the way are the hierarchy
  (`ClassPath.Arrives`);
* because the next superclass has the name of a class on the way (`ClassPath.ComesBack`);
* because the next superclass is not there (`ClassPath.Misses`).

`ClassPath.hierarchy_outcome` says which outcome goes with which end.  The layers of a hierarchy are
then those of its classes from the root down, one for each class at most, so that a layer of the
class itself is the last one.

The steps of the walk are kept apart from its end: `Climbs` grows at its upper end, and what the
function has left to do at any point is known from the classes on the way (`Climbs.hierarchy_eq`).
-/

set_option autoImplicit false

namespace ComponentCatalog

namespace ClassPath

variable {cp : ClassPath} {start parent : String} {seen : List String}
  {c next last : ClassDecl} {passed : List ClassDecl}

/-! ## One step of the function -/

theorem superclassesFrom_of_superclass?_eq_none (h : c.superclass? = none) :
    cp.superclassesFrom start seen c = .ok [] := by
  rw [superclassesFrom]
  split
  · rfl
  · rename_i parent hparent
    rw [h] at hparent
    cases hparent

theorem superclassesFrom_of_mem (hparent : c.superclass? = some parent) (hseen : parent ∈ seen) :
    cp.superclassesFrom start seen c = .error (.cyclicInheritance start parent) := by
  rw [superclassesFrom]
  split
  · rename_i hnone
    rw [hparent] at hnone
    cases hnone
  · rename_i p hp
    obtain rfl := Option.some.inj (hparent.symm.trans hp)
    exact dif_pos hseen

theorem superclassesFrom_of_not_mem (hparent : c.superclass? = some parent)
    (hnew : parent ∉ seen) :
    cp.superclassesFrom start seen c =
      match cp.find? parent with
      | none => .error (.classNotFound parent)
      | some next => (cp.superclassesFrom start (parent :: seen) next).map (next :: ·) := by
  rw [superclassesFrom]
  split
  · rename_i hnone
    rw [hparent] at hnone
    cases hnone
  · rename_i p hp
    obtain rfl := Option.some.inj (hparent.symm.trans hp)
    rw [dif_neg hnew]
    split
    · rename_i hnone
      rw [hnone]
    · rename_i found hfound
      rw [hfound]
      dsimp only
      cases cp.superclassesFrom start (parent :: seen) found with
      | error failure => rfl
      | ok rest => rfl

/-! ## How far the walk comes -/

/-- The walk from `c` comes to `last` past the classes `passed`: each class is followed by the one
loaded for its superclass, and all names differ. -/
structure Climbs (cp : ClassPath) (c : ClassDecl) (passed : List ClassDecl) (last : ClassDecl) :
    Prop where
  start : (passed ++ [last]).head? = some c
  chain : (passed ++ [last]).IsChain fun k next ↦ cp.IsSuperclass next k
  names : ((passed ++ [last]).map (·.name)).Nodup

theorem climbs_self (cp : ClassPath) (c : ClassDecl) : cp.Climbs c [] c where
  start := rfl
  chain := List.isChain_singleton c
  names := List.nodup_singleton c.name

namespace Climbs

/-- The walk goes on to a superclass that is there and has a new name. -/
theorem step (h : cp.Climbs c passed last) (hparent : last.superclass? = some parent)
    (hnew : parent ∉ (passed ++ [last]).map (·.name)) (hfind : cp.find? parent = some next) :
    cp.Climbs c (passed ++ [last]) next where
  start := by rw [List.head?_append, h.start, Option.some_or]
  chain := by
    refine h.chain.append (List.isChain_singleton next) fun k hk n hn ↦ ?_
    rw [List.getLast?_concat] at hk
    obtain rfl := Option.some.inj hk
    obtain rfl := Option.some.inj hn
    exact ⟨parent, hparent, hfind⟩
  names := by
    rw [List.map_append, List.nodup_append]
    refine ⟨h.names, List.nodup_singleton _, fun name hname other hother ↦ ?_⟩
    obtain rfl := List.mem_singleton.mp hother
    have hother : next.name = parent := cp.name_eq parent next hfind
    rintro rfl
    exact hnew (hother ▸ hname)

/-- The last step of a walk. -/
theorem of_concat (h : cp.Climbs c (passed ++ [last]) next) :
    cp.Climbs c passed last ∧ last.superclass? = some next.name ∧
      next.name ∉ (passed ++ [last]).map (·.name) ∧ cp.find? next.name = some next := by
  have hnames := h.names
  rw [List.map_append, List.nodup_append] at hnames
  obtain ⟨hchain, -, hstep⟩ := List.isChain_append.mp h.chain
  obtain ⟨parent, hparent, hfind⟩ := hstep last List.getLast?_concat next rfl
  have hname : next.name = parent := cp.name_eq parent next hfind
  refine ⟨⟨?_, hchain, hnames.1⟩, hname ▸ hparent, fun hmem ↦ ?_, hname ▸ hfind⟩
  · have hstart := h.start
    rwa [List.head?_append_of_ne_nil _ (by simp)] at hstart
  · exact hnames.2.2 _ hmem _ (List.mem_singleton.mpr rfl) rfl

/-- What the function has left to do when the walk has come to `last`. -/
theorem hierarchy_eq (h : cp.Climbs c passed last) :
    cp.hierarchy c =
      (cp.superclassesFrom c.name ((passed ++ [last]).map (·.name)).reverse last).map
        (passed ++ [last] ++ ·) := by
  induction passed using List.reverseRecOn generalizing last with
  | nil =>
    obtain rfl := Option.some.inj h.start
    rfl
  | append_singleton passed k ih =>
    obtain ⟨hk, hparent, hnew, hfind⟩ := h.of_concat
    have hseen : last.name ∉ ((passed ++ [k]).map (·.name)).reverse :=
      fun hmem ↦ hnew (List.mem_reverse.mp hmem)
    have hnames : ((passed ++ [k] ++ [last]).map (·.name)).reverse =
        last.name :: ((passed ++ [k]).map (·.name)).reverse := by
      rw [List.map_append, List.reverse_append]
      rfl
    rw [ih hk, superclassesFrom_of_not_mem hparent hseen, hfind, hnames]
    dsimp only
    cases cp.superclassesFrom c.name (last.name :: _) last with
    | error failure => rfl
    | ok rest => exact congrArg Except.ok (List.append_assoc (passed ++ [k]) [last] rest).symm

/-- All classes after the first one have been found on the class path. -/
theorem loaded (h : cp.Climbs c passed last) :
    ((passed ++ [last]).map (·.name)).tail ⊆ cp.classes.names := by
  induction passed using List.reverseRecOn generalizing last with
  | nil => exact List.nil_subset _
  | append_singleton passed k ih =>
    obtain ⟨hk, -, -, hfind⟩ := h.of_concat
    rw [List.map_append, List.tail_append_of_ne_nil (by simp)]
    refine List.append_subset.mpr ⟨ih hk, fun name hmem ↦ ?_⟩
    obtain rfl := List.mem_singleton.mp hmem
    exact List.mem_map.mpr ⟨_, (NameMap.get?_eq_some_iff _ _ _).mp hfind, rfl⟩

/-- **The walk does not go on for ever**: it passes no more classes than the class path has. -/
theorem length_le (h : cp.Climbs c passed last) : passed.length ≤ cp.size := by
  have hlength := (List.subperm_of_subset h.names.tail h.loaded).length_le
  have hsize : cp.classes.names.length = cp.size := List.length_map _
  simpa [hsize] using hlength

end Climbs

/-! ## How the walk ends -/

/-- The walk comes to a class without a superclass, past the other classes of `hierarchy`. -/
def Arrives (cp : ClassPath) (c : ClassDecl) (hierarchy : List ClassDecl) : Prop :=
  ∃ passed last, cp.Climbs c passed last ∧ last.superclass? = none ∧ hierarchy = passed ++ [last]

/-- The walk comes to a class whose superclass has the name of a class on the way. -/
def ComesBack (cp : ClassPath) (c : ClassDecl) (parent : String) : Prop :=
  ∃ passed last, cp.Climbs c passed last ∧ last.superclass? = some parent ∧
    parent ∈ (passed ++ [last]).map (·.name)

/-- The walk comes to a class whose superclass has a new name, but is not there. -/
def Misses (cp : ClassPath) (c : ClassDecl) (parent : String) : Prop :=
  ∃ passed last, cp.Climbs c passed last ∧ last.superclass? = some parent ∧
    parent ∉ (passed ++ [last]).map (·.name) ∧ cp.find? parent = none

theorem hierarchy_of_arrives {hierarchy : List ClassDecl} (h : cp.Arrives c hierarchy) :
    cp.hierarchy c = .ok hierarchy := by
  obtain ⟨passed, last, hclimbs, hroot, rfl⟩ := h
  rw [hclimbs.hierarchy_eq, superclassesFrom_of_superclass?_eq_none hroot]
  exact congrArg Except.ok (List.append_nil _)

theorem hierarchy_of_comesBack (h : cp.ComesBack c parent) :
    cp.hierarchy c = .error (.cyclicInheritance c.name parent) := by
  obtain ⟨passed, last, hclimbs, hparent, hmem⟩ := h
  rw [hclimbs.hierarchy_eq, superclassesFrom_of_mem hparent (List.mem_reverse.mpr hmem)]
  rfl

theorem hierarchy_of_misses (h : cp.Misses c parent) :
    cp.hierarchy c = .error (.classNotFound parent) := by
  obtain ⟨passed, last, hclimbs, hparent, hnew, hnone⟩ := h
  rw [hclimbs.hierarchy_eq,
    superclassesFrom_of_not_mem hparent (fun hmem ↦ hnew (List.mem_reverse.mp hmem)), hnone]
  rfl

/-- Every walk comes to one of the three ends, by induction on the number of classes that it can
still pass. -/
theorem Climbs.ends (h : cp.Climbs c passed last) :
    (∃ hierarchy, cp.Arrives c hierarchy) ∨ (∃ parent, cp.ComesBack c parent) ∨
      ∃ parent, cp.Misses c parent := by
  induction hleft : cp.size - passed.length using Nat.strong_induction_on
    generalizing passed last with
  | h left ih =>
    cases hparent : last.superclass? with
    | none => exact .inl ⟨_, passed, last, h, hparent, rfl⟩
    | some parent =>
      by_cases hmem : parent ∈ (passed ++ [last]).map (·.name)
      · exact .inr (.inl ⟨parent, passed, last, h, hparent, hmem⟩)
      · cases hfind : cp.find? parent with
        | none => exact .inr (.inr ⟨parent, passed, last, h, hparent, hmem, hfind⟩)
        | some next =>
          have hnext := h.step hparent hmem hfind
          have hlength := hnext.length_le
          rw [List.length_append, List.length_singleton] at hlength
          refine ih _ ?_ hnext rfl
          rw [List.length_append, List.length_singleton]
          omega

theorem walk_ends (cp : ClassPath) (c : ClassDecl) :
    (∃ hierarchy, cp.Arrives c hierarchy) ∨ (∃ parent, cp.ComesBack c parent) ∨
      ∃ parent, cp.Misses c parent :=
  (cp.climbs_self c).ends

theorem hierarchy_eq_ok_iff {hierarchy : List ClassDecl} :
    cp.hierarchy c = .ok hierarchy ↔ cp.Arrives c hierarchy := by
  refine ⟨fun h ↦ ?_, hierarchy_of_arrives⟩
  obtain ⟨found, hfound⟩ | ⟨parent, hback⟩ | ⟨parent, hmiss⟩ := cp.walk_ends c
  · obtain rfl := Except.ok.inj ((hierarchy_of_arrives hfound).symm.trans h)
    exact hfound
  · cases (hierarchy_of_comesBack hback).symm.trans h
  · cases (hierarchy_of_misses hmiss).symm.trans h

theorem hierarchy_fails_to_load_iff {f : Failure} :
    cp.hierarchy c = .error f ∧ f.kind = .loadError ↔
      ∃ parent, cp.ComesBack c parent ∧ f = .cyclicInheritance c.name parent := by
  constructor
  · rintro ⟨h, hkind⟩
    obtain ⟨found, hfound⟩ | ⟨parent, hback⟩ | ⟨parent, hmiss⟩ := cp.walk_ends c
    · cases (hierarchy_of_arrives hfound).symm.trans h
    · exact ⟨parent, hback, Except.error.inj (h.symm.trans (hierarchy_of_comesBack hback))⟩
    · obtain rfl := Except.error.inj ((hierarchy_of_misses hmiss).symm.trans h)
      cases hkind
  · rintro ⟨parent, hback, rfl⟩
    exact ⟨hierarchy_of_comesBack hback, rfl⟩

theorem hierarchy_misses_iff {f : Failure} :
    cp.hierarchy c = .error f ∧ f.kind = .classNotFound ↔
      ∃ parent, cp.Misses c parent ∧ f = .classNotFound parent := by
  constructor
  · rintro ⟨h, hkind⟩
    obtain ⟨found, hfound⟩ | ⟨parent, hback⟩ | ⟨parent, hmiss⟩ := cp.walk_ends c
    · cases (hierarchy_of_arrives hfound).symm.trans h
    · obtain rfl := Except.error.inj ((hierarchy_of_comesBack hback).symm.trans h)
      cases hkind
    · exact ⟨parent, hmiss, Except.error.inj (h.symm.trans (hierarchy_of_misses hmiss))⟩
  · rintro ⟨parent, hmiss, rfl⟩
    exact ⟨hierarchy_of_misses hmiss, rfl⟩

/-! ## Hierarchies of one and two classes -/

theorem hierarchy_eq_singleton (h : c.superclass? = none) : cp.hierarchy c = .ok [c] :=
  hierarchy_of_arrives ⟨[], c, cp.climbs_self c, h, rfl⟩

/-- The hierarchy of a class whose superclass is a root. -/
theorem hierarchy_eq_pair (hparent : c.superclass? = some parent) (hnew : parent ≠ c.name)
    (hfind : cp.find? parent = some next) (hroot : next.superclass? = none) :
    cp.hierarchy c = .ok [c, next] :=
  have hclimbs := (cp.climbs_self c).step hparent (fun h ↦ hnew (List.mem_singleton.mp h)) hfind
  hierarchy_of_arrives ⟨[c], next, hclimbs, hroot, rfl⟩

theorem nodup_names_of_hierarchy {hierarchy : List ClassDecl}
    (h : cp.hierarchy c = .ok hierarchy) : (hierarchy.map (·.name)).Nodup := by
  obtain ⟨passed, last, hclimbs, -, rfl⟩ := hierarchy_eq_ok_iff.mp h
  exact hclimbs.names

/-- A hierarchy starts with its class, and its superclasses have other names. -/
theorem exists_cons_of_hierarchy {hierarchy : List ClassDecl}
    (h : cp.hierarchy c = .ok hierarchy) :
    ∃ supers, hierarchy = c :: supers ∧ ∀ k ∈ supers, k.name ≠ c.name := by
  have hnames := nodup_names_of_hierarchy h
  obtain ⟨passed, last, hclimbs, -, rfl⟩ := hierarchy_eq_ok_iff.mp h
  obtain ⟨supers, hcons⟩ := List.head?_eq_some_iff.mp hclimbs.start
  rw [hcons, List.map_cons, List.nodup_cons] at hnames
  exact ⟨supers, hcons, fun k hk heq ↦ hnames.1 (List.mem_map.mpr ⟨k, hk, heq⟩)⟩

end ClassPath

/-! ## The layers of a hierarchy -/

namespace Locator

variable {l : Locator} {c : ClassDecl} {layer : LayerResource}

theorem className_of_findMetadata (h : l.findMetadata c = some layer) :
    layer.className = c.name := by
  obtain ⟨resource, -, rfl⟩ := Option.map_eq_some_iff.mp h
  rfl

/-- The layers of the superclasses come before the one of the class itself. -/
theorem layersOf_cons (l : Locator) (c : ClassDecl) (supers : List ClassDecl) :
    l.layersOf (c :: supers) = l.layersOf supers ++ (l.findMetadata c).toList := by
  rw [Locator.layersOf, List.filterMap_cons]
  cases l.findMetadata c with
  | none => exact (List.append_nil _).symm
  | some layer => exact List.reverse_cons

theorem mem_layersOf_iff {hierarchy : List ClassDecl} :
    layer ∈ l.layersOf hierarchy ↔ ∃ k ∈ hierarchy, l.findMetadata k = some layer := by
  rw [layersOf, List.mem_reverse, List.mem_filterMap]

/-- The layers come from the root down, and each class has one at most. -/
theorem map_className_layersOf_sublist (l : Locator) (hierarchy : List ClassDecl) :
    ((l.layersOf hierarchy).map (·.className)).Sublist (hierarchy.map (·.name)).reverse := by
  induction hierarchy with
  | nil => exact List.Sublist.refl _
  | cons c supers ih =>
    rw [layersOf_cons, List.map_append, List.map_cons, List.reverse_cons]
    refine ih.append ?_
    cases hfind : l.findMetadata c with
    | none => exact List.nil_sublist _
    | some layer =>
      rw [← className_of_findMetadata hfind]
      exact List.Sublist.refl _

/-- If no superclass has the name of the class, then its own layer is the last one. -/
theorem getLast?_layersOf_cons {supers : List ClassDecl} (hsupers : ∀ k ∈ supers, k.name ≠ c.name)
    (hlayer : layer ∈ l.layersOf (c :: supers)) (hname : layer.className = c.name) :
    (l.layersOf (c :: supers)).getLast? = some layer := by
  obtain ⟨k, hk, hfind⟩ := mem_layersOf_iff.mp hlayer
  obtain rfl | hk := List.mem_cons.mp hk
  · rw [layersOf_cons, hfind]
    exact List.getLast?_concat
  · exact absurd ((className_of_findMetadata hfind).symm.trans hname) (hsupers k hk)

end Locator

namespace ClassPath

variable {cp : ClassPath} {c : ClassDecl}

/-- **What the walk up the superclasses gives.**  It ends, in one of three ways, and the outcome is
the hierarchy if it arrives at a root, a failure to load if it comes back to a class, and otherwise
the failure that the first class that is not there is not found.  The layers of a hierarchy come
from the root down, one for each class that has metadata, and the class's own one is the last. -/
theorem hierarchy_outcome (cp : ClassPath) (c : ClassDecl) :
    (∀ passed last, cp.Climbs c passed last → passed.length ≤ cp.size) ∧
    ((∃ hierarchy, cp.Arrives c hierarchy) ∨ (∃ parent, cp.ComesBack c parent) ∨
      ∃ parent, cp.Misses c parent) ∧
    (∀ hierarchy, cp.hierarchy c = .ok hierarchy ↔ cp.Arrives c hierarchy) ∧
    (∀ f, cp.hierarchy c = .error f ∧ f.kind = .loadError ↔
      ∃ parent, cp.ComesBack c parent ∧ f = .cyclicInheritance c.name parent) ∧
    (∀ f, cp.hierarchy c = .error f ∧ f.kind = .classNotFound ↔
      ∃ parent, cp.Misses c parent ∧ f = .classNotFound parent) ∧
    ∀ hierarchy (l : Locator), cp.hierarchy c = .ok hierarchy →
      (∀ layer, layer ∈ l.layersOf hierarchy ↔ ∃ k ∈ hierarchy, l.findMetadata k = some layer) ∧
      ((l.layersOf hierarchy).map (·.className)).Sublist (hierarchy.map (·.name)).reverse ∧
      ((l.layersOf hierarchy).map (·.className)).Nodup ∧
      ∀ layer ∈ l.layersOf hierarchy, layer.className = c.name →
        (l.layersOf hierarchy).getLast? = some layer := by
  refine ⟨fun passed last h ↦ h.length_le, cp.walk_ends c, fun hierarchy ↦ hierarchy_eq_ok_iff,
    fun f ↦ hierarchy_fails_to_load_iff, fun f ↦ hierarchy_misses_iff, fun hierarchy l h ↦ ?_⟩
  have hnames := nodup_names_of_hierarchy h
  obtain ⟨supers, rfl, hsupers⟩ := exists_cons_of_hierarchy h
  have hdown := l.map_className_layersOf_sublist (c :: supers)
  refine ⟨fun layer ↦ Locator.mem_layersOf_iff, hdown, hdown.nodup (List.nodup_reverse.mpr hnames),
    fun layer hlayer hname ↦ ?_⟩
  exact Locator.getLast?_layersOf_cons hsupers hlayer hname

end ClassPath

end ComponentCatalog
