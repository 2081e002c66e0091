import Mathlib.Data.List.Nodup
import ComponentCatalog.ClassModel.Bean

/-!
# Looking up methods

The methods that everyone can call on an instance are looked up in three ways: as a list with the
classes that declare them (`Hierarchy.publicMethods`), as a list without those
(`Hierarchy.methods`), and one by one (`Hierarchy.findMethod?`).  The two lists are walked in
different ways, and **list the same methods in the same order**.

Looking up one method takes the first method of the signature in each class, and only then asks who
can call it, where the lists ask first.  This makes a difference if a class has several methods of
one signature and the first of them is not for everyone, so that it **obscures** the others
(`ClassDecl.Obscures`).  The lookups agree unless the class that they should find the method in does
that (`Hierarchy.lookups_agree`).

Both sides come down to a search through the classes, the list because what it has of a signature is
the first one of all (`mem_firstOfEach_iff`).
-/

set_option autoImplicit false

namespace ComponentCatalog

universe u v

/-! ## The first of each key -/

section FirstOfEach

variable {α : Type u} {β : Type v}

/-- A member is the first one of its key. -/
theorem mem_firstOfEach_iff {key : α → String} {a : α} {l : List α} :
    a ∈ firstOfEach key l ↔ l.find? (key · == key a) = some a := by
  induction l with
  | nil => simp [firstOfEach]
  | cons b l ih =>
    rw [firstOfEach, List.mem_cons, List.mem_filter, ih, List.find?_cons]
    by_cases hkey : key b = key a
    · simp [hkey, eq_comm]
    · have hne : a ≠ b := fun h ↦ hkey (congrArg key h.symm)
      have hbeq : (key b == key a) = false := by simpa using hkey
      simp [hbeq, hne, Ne.symm hkey]

theorem map_firstOfEach (key : β → String) (f : α → β) (l : List α) :
    (firstOfEach (fun a ↦ key (f a)) l).map f = firstOfEach key (l.map f) := by
  induction l with
  | nil => rfl
  | cons a l ih =>
    rw [firstOfEach, List.map_cons, List.map_cons, firstOfEach, ← ih, List.filter_map]
    rfl

end FirstOfEach

/-! ## The two lists -/

namespace Hierarchy

/-- Going through methods with the signatures that were seen leaves the first of each signature,
less what was seen before. -/
theorem newMethods_eq (seen : List String) (ms : List MethodDecl) :
    newMethods seen ms =
      (firstOfEach (·.signature) (ms.filter (·.isPublicInstance))).filter fun m ↦
        !seen.contains m.signature := by
  induction ms generalizing seen with
  | nil => rfl
  | cons m ms ih =>
    rw [newMethods, List.filter_cons]
    cases hpublic : m.isPublicInstance with
    | false => simpa using ih seen
    | true =>
      rw [if_pos rfl, firstOfEach, List.filter_cons, List.filter_filter]
      cases hseen : seen.contains m.signature with
      | true =>
        -- The method is dropped for what was seen before, which covers all others of its signature.
        have hothers : ∀ n : MethodDecl,
            (!seen.contains n.signature && n.signature != m.signature) =
              !seen.contains n.signature := by
          intro n
          cases hn : seen.contains n.signature with
          | true => rfl
          | false =>
            have hne : n.signature ≠ m.signature := fun h ↦ by
              rw [h, hseen] at hn
              cases hn
            simpa using hne
        simp only [hothers]
        simpa using ih seen
      | false =>
        have hothers : ∀ n : MethodDecl, (!(m.signature :: seen).contains n.signature) =
            (!seen.contains n.signature && n.signature != m.signature) := by
          intro n
          rw [List.contains_cons, Bool.not_or, Bool.and_comm]
          rfl
        have hrest := ih (m.signature :: seen)
        simp only [hothers] at hrest
        simp [hrest]

theorem methods_eq (hierarchy : List ClassDecl) :
    methods hierarchy = (publicMethods hierarchy).map (·.2) := by
  have hflat : (hierarchy.flatMap fun c ↦ c.methods.map (c.name, ·)).map (·.2) =
      hierarchy.flatMap (·.methods) := by
    simp only [List.map_flatMap, List.map_map, Function.comp_def, List.map_id']
  rw [methods, newMethods_eq, publicMethods, map_firstOfEach, ← hflat, List.filter_map]
  exact List.filter_eq_self.mpr fun m _ ↦ rfl

end Hierarchy

/-! ## One method -/

namespace ClassDecl

/-- The first method of a signature that everyone can call on an instance. -/
def publicMethod? (c : ClassDecl) (signature : String) : Option MethodDecl :=
  c.methods.find? fun m ↦ m.isPublicInstance && m.signature == signature

/-- There is a method of the signature that everyone can call on an instance, but another one that
they cannot is declared before it. -/
def Obscures (c : ClassDecl) (signature : String) : Prop :=
  (c.publicMethod? signature).isSome ∧
    (c.findMethod? signature).filter (·.isPublicInstance) = none

variable {c : ClassDecl} {signature : String} {m : MethodDecl}

instance : Decidable (c.Obscures signature) := inferInstanceAs (Decidable (_ ∧ _))

theorem publicMethod?_of_findMethod?
    (h : (c.findMethod? signature).filter (·.isPublicInstance) = some m) :
    c.publicMethod? signature = some m := by
  obtain ⟨hfind, hpublic⟩ := Option.filter_eq_some_iff.mp h
  rw [findMethod?, List.find?_eq_some_iff_append] at hfind
  obtain ⟨hsignature, before, after, hmethods, hbefore⟩ := hfind
  rw [publicMethod?, List.find?_eq_some_iff_append]
  refine ⟨by simp [hpublic, hsignature], before, after, hmethods, fun n hn ↦ ?_⟩
  have hother : (n.signature == signature) = false := by simpa using hbefore n hn
  rw [hother, Bool.and_false]
  rfl

theorem findMethod?_eq_of_not_obscures (h : ¬c.Obscures signature) :
    (c.findMethod? signature).filter (·.isPublicInstance) = c.publicMethod? signature := by
  cases hfind : (c.findMethod? signature).filter (·.isPublicInstance) with
  | some m => exact (publicMethod?_of_findMethod? hfind).symm
  | none =>
    refine (Option.not_isSome_iff_eq_none.mp fun hsome ↦ ?_).symm
    exact h ⟨hsome, hfind⟩

end ClassDecl

namespace Hierarchy

variable {hierarchy : List ClassDecl} {signature : String} {e : String × MethodDecl}

/-- The first class that has a method of the signature for everyone to call obscures it. -/
def Obscured (hierarchy : List ClassDecl) (signature : String) : Prop :=
  ∃ c, hierarchy.find? (fun c ↦ (c.publicMethod? signature).isSome) = some c ∧ c.Obscures signature

instance : Decidable (Obscured hierarchy signature) :=
  decidable_of_iff ((hierarchy.find? fun c ↦ (c.publicMethod? signature).isSome).any
    (·.Obscures signature)) (by simp only [Option.any_eq_true, decide_eq_true_eq, Obscured])

/-- What looking up the signature finds is what is listed with the signature. -/
def LookupsAgree (hierarchy : List ClassDecl) (signature : String) : Prop :=
  ∀ e, findMethod? hierarchy signature = some e ↔
    e ∈ publicMethods hierarchy ∧ e.2.signature = signature

/-- What is listed with a signature is the method of the first class that has one. -/
theorem mem_publicMethods_iff :
    e ∈ publicMethods hierarchy ∧ e.2.signature = signature ↔
      hierarchy.findSome? (fun c ↦ (c.publicMethod? signature).map (c.name, ·)) = some e := by
  have hsearch : ∀ signature, ((hierarchy.flatMap fun c ↦ c.methods.map (c.name, ·)).filter
      (·.2.isPublicInstance)).find? (·.2.signature == signature) =
        hierarchy.findSome? fun c ↦ (c.publicMethod? signature).map (c.name, ·) := by
    intro signature
    rw [List.find?_filter, List.find?_flatMap]
    refine congrArg (hierarchy.findSome? ·) (funext fun c ↦ ?_)
    simp only [List.find?_map, Function.comp_def, ClassDecl.publicMethod?, Bool.decide_and,
      Bool.decide_eq_true]
  rw [publicMethods, mem_firstOfEach_iff, hsearch]
  constructor
  · rintro ⟨h, rfl⟩
    exact h
  · intro h
    have hsignature : e.2.signature = signature := by
      rw [← hsearch] at h
      simpa using List.find?_some h
    exact ⟨hsignature ▸ h, hsignature⟩

theorem findMethod?_eq_of_not_obscured (h : ¬Obscured hierarchy signature) :
    findMethod? hierarchy signature =
      hierarchy.findSome? fun c ↦ (c.publicMethod? signature).map (c.name, ·) := by
  rw [findMethod?]
  induction hierarchy with
  | nil => rfl
  | cons c rest ih =>
    rw [List.findSome?_cons, List.findSome?_cons]
    cases hc : c.publicMethod? signature with
    | some m =>
      have hnot : ¬c.Obscures signature := fun hobscures ↦
        h ⟨c, by rw [List.find?_cons, hc]; rfl, hobscures⟩
      rw [ClassDecl.findMethod?_eq_of_not_obscures hnot, hc]
      rfl
    | none =>
      have hnone : (c.findMethod? signature).filter (·.isPublicInstance) = none := by
        refine Option.eq_none_iff_forall_ne_some.mpr fun m hm ↦ ?_
        rw [ClassDecl.publicMethod?_of_findMethod? hm] at hc
        cases hc
      rw [hnone]
      refine ih fun ⟨k, hk, hobscures⟩ ↦ h ⟨k, ?_, hobscures⟩
      rw [List.find?_cons, hc]
      exact hk

theorem exists_mem_publicMethods (h : findMethod? hierarchy signature = some e) :
    ∃ e' ∈ publicMethods hierarchy, e'.2.signature = signature := by
  obtain ⟨c, hc, he⟩ := List.exists_of_findSome?_eq_some h
  obtain ⟨m, hm, -⟩ := Option.map_eq_some_iff.mp he
  have hsome : (hierarchy.findSome? fun c ↦
      (c.publicMethod? signature).map (c.name, ·)).isSome := by
    rw [List.isSome_findSome?, List.any_eq_true]
    refine ⟨c, hc, ?_⟩
    rw [ClassDecl.publicMethod?_of_findMethod? hm]
    rfl
  obtain ⟨e', he'⟩ := Option.isSome_iff_exists.mp hsome
  exact ⟨e', mem_publicMethods_iff.mpr he'⟩

/-- Of an obscured signature the list has a method of the class that obscures it. -/
theorem findSome?_of_obscured {c : ClassDecl}
    (h : hierarchy.find? (fun c ↦ (c.publicMethod? signature).isSome) = some c) :
    ∃ m, hierarchy.findSome? (fun c ↦ (c.publicMethod? signature).map (c.name, ·)) =
      some (c.name, m) := by
  induction hierarchy with
  | nil => cases h
  | cons k rest ih =>
    rw [List.find?_cons] at h
    rw [List.findSome?_cons]
    cases hk : k.publicMethod? signature with
    | some m =>
      rw [hk] at h
      obtain rfl := Option.some.inj h
      exact ⟨m, rfl⟩
    | none =>
      rw [hk] at h
      exact ih h

theorem not_lookupsAgree_of_obscured (hnames : (hierarchy.map (·.name)).Nodup)
    (h : Obscured hierarchy signature) : ¬LookupsAgree hierarchy signature := by
  obtain ⟨c, hfind, -, hnone⟩ := h
  obtain ⟨m, hm⟩ := findSome?_of_obscured hfind
  intro hagree
  obtain ⟨k, hk, he⟩ :=
    List.exists_of_findSome?_eq_some ((hagree _).mpr (mem_publicMethods_iff.mpr hm))
  obtain ⟨m', hm', heq⟩ := Option.map_eq_some_iff.mp he
  -- A method that is found in the class of this name is one of `c`, which has none to find.
  have hname : k.name = c.name := (Prod.mk.inj heq).1
  obtain rfl := List.inj_on_of_nodup_map hnames hk (List.mem_of_find?_eq_some hfind) hname
  rw [hnone] at hm'
  cases hm'

/-- **The lookups of methods agree**: the two lists in all respects, and the third lookup with them
for every signature that is not obscured.  Of a signature that it finds a method of, there is a
method in the lists, too; but of an obscured one it does not find what the lists have. -/
theorem lookups_agree (hierarchy : List ClassDecl) :
    methods hierarchy = (publicMethods hierarchy).map (·.2) ∧
      ∀ signature,
        (¬Obscured hierarchy signature → LookupsAgree hierarchy signature) ∧
        (∀ e, findMethod? hierarchy signature = some e →
          ∃ e' ∈ publicMethods hierarchy, e'.2.signature = signature) ∧
        ((hierarchy.map (·.name)).Nodup → Obscured hierarchy signature →
          ¬LookupsAgree hierarchy signature) := by
  refine ⟨methods_eq hierarchy, fun signature ↦ ⟨fun h e ↦ ?_, fun e ↦ exists_mem_publicMethods,
    not_lookupsAgree_of_obscured⟩⟩
  rw [findMethod?_eq_of_not_obscured h, mem_publicMethods_iff]

/-! A box that declares a private method, and after it one of the same signature for everyone.  A
crate is a box with such a method of its own, so that of a crate the method is found. -/

def boxHierarchy : List ClassDecl :=
  [{ name := "a.Box", methods :=
      [{ name := "pack", visibility := .declaringClass }, { name := "pack" }] }]

def crateHierarchy : List ClassDecl :=
  { name := "a.Crate", superclass? := some "a.Box", methods := [{ name := "pack" }] } ::
    boxHierarchy

theorem lookups_agree_crate :
    LookupsAgree crateHierarchy "pack()" ∧
      findMethod? crateHierarchy "pack()" = some ("a.Crate", { name := "pack" }) ∧
      ("a.Crate", { name := "pack" }) ∈ publicMethods crateHierarchy ∧
      ¬LookupsAgree boxHierarchy "pack()" := by
  have hagree : LookupsAgree crateHierarchy "pack()" :=
    ((lookups_agree crateHierarchy).2 "pack()").1 (by decide)
  have hfind : findMethod? crateHierarchy "pack()" = some ("a.Crate", { name := "pack" }) := by
    decide
  exact ⟨hagree, hfind, ((hagree _).mp hfind).1,
    ((lookups_agree boxHierarchy).2 "pack()").2.2 (by decide) (by decide)⟩

theorem lookups_disagree :
    publicMethods boxHierarchy = [("a.Box", { name := "pack" })] ∧
      findMethod? boxHierarchy "pack()" = none ∧ ¬LookupsAgree boxHierarchy "pack()" := by
  have hlist : publicMethods boxHierarchy = [("a.Box", { name := "pack" })] := by decide
  have hfind : findMethod? boxHierarchy "pack()" = none := by decide
  refine ⟨hlist, hfind, fun hagree ↦ ?_⟩
  have hmem : ("a.Box", { name := "pack" }) ∈ publicMethods boxHierarchy := by
    rw [hlist]
    exact List.mem_cons_self
  have hsome := (hagree ("a.Box", { name := "pack" })).mpr ⟨hmem, by decide⟩
  rw [hfind] at hsome
  cases hsome

end Hierarchy

end ComponentCatalog
