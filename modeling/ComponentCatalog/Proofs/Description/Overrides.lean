import Mathlib.Data.List.Induction
import Mathlib.Data.List.Nodup
import ComponentCatalog.Description.Basic

/-!
# What overrides add up to

Properties are added and overrides are given in any order.  An override is applied at once where
its property is there, waits for it otherwise, and is dropped by `Description.joinProperties` where
none comes.  **None of this shows in the end**: each property has the overrides that address it, in
the order in which they were given (`joinProperties_run`).

This needs selectors that tell properties apart, `Property.Separate`.  An override then addresses
the property with its selector as identifier, or else the first one added with it as title.

The invariant is the closed form itself, for what was done so far (`Property.Settled`); it is shown
by induction from the end, where one more step is done.
-/

set_option autoImplicit false

namespace ComponentCatalog

universe u v

/-! ## Changes of the first -/

section UpdateFirst

variable {α : Type u} {β : Type v}

/-- What the change keeps of each member, the list keeps. -/
theorem map_updateFirst {f : α → β} {change : α → α} (h : ∀ a, f (change a) = f a)
    (which : α → Bool) (l : List α) : (updateFirst which change l).map f = l.map f := by
  induction l with
  | nil => rfl
  | cons a l ih =>
    rw [updateFirst]
    split
    · rw [List.map_cons, List.map_cons, h]
    · rw [List.map_cons, List.map_cons, ih]

/-- A change of members that a search passes over does not show in what it finds. -/
theorem find?_updateFirst {which which' : α → Bool} {change : α → α}
    (hchange : ∀ a, which' (change a) = which' a) {l : List α}
    (hother : ∀ a ∈ l, which a → which' a = false) :
    (updateFirst which change l).find? which' = l.find? which' := by
  induction l with
  | nil => rfl
  | cons a l ih =>
    rw [updateFirst]
    split
    · rename_i ha
      have hnot := hother a List.mem_cons_self ha
      rw [List.find?_cons, List.find?_cons, hchange, hnot]
    · rw [List.find?_cons, List.find?_cons, ih fun b hb ↦ hother b (List.mem_cons_of_mem a hb)]

variable [DecidableEq β]

theorem updateFirst_eq_self {which : α → Bool} {l : List α} (h : l.find? which = none)
    (change : α → α) : updateFirst which change l = l := by
  induction l with
  | nil => rfl
  | cons a rest ih =>
    rw [List.find?_cons] at h
    split at h
    · cases h
    · rename_i ha
      rw [updateFirst, ha, ih h]
      rfl

/-- In a list without repetitions, the first one that is changed is the first one that is found. -/
theorem updateFirst_map {f : β → α} {l : List β} (hl : l.Nodup) (which : α → Bool)
    (change : α → α) :
    updateFirst which change (l.map f) =
      l.map fun b ↦ if l.find? (fun b ↦ which (f b)) = some b then change (f b) else f b := by
  induction l with
  | nil => rfl
  | cons b rest ih =>
    obtain ⟨hb, hrest⟩ := List.nodup_cons.mp hl
    rw [List.map_cons, updateFirst, List.map_cons, List.find?_cons]
    cases hwhich : which (f b) with
    | true =>
      have hothers : ∀ b' ∈ rest, f b' = if b = b' then change (f b') else f b' := by
        intro b' hb'
        rw [if_neg]
        rintro rfl
        exact hb hb'
      simpa using hothers
    | false =>
      have hnot : rest.find? (fun b ↦ which (f b)) ≠ some b :=
        fun h ↦ hb (List.mem_of_find?_eq_some h)
      simp [ih hrest, hnot]

end UpdateFirst

/-! ## Addressing -/

namespace Property

/-- Selectors tell the properties apart. -/
structure Separate (ps : List Property) : Prop where
  ids : (ps.map (·.id)).Nodup
  /-- No identifier is the title of another property. -/
  titles : ∀ p ∈ ps, ∀ q ∈ ps, p.id = q.title → p = q

/-- Whether, among the properties `ps` in the order in which they were added, the override is for
`p`. -/
def addressedBy (ps : List Property) (p : Property) (o : PropertyOverride) : Bool :=
  o.selector = p.id ∨ ps.find? (·.title = o.selector) = some p

/-- The property with overrides in order. -/
def overriddenBy (p : Property) (os : List PropertyOverride) : Property :=
  os.foldl (fun p o ↦ o.apply p) p

/-- Properties, each with the overrides that address it. -/
def allOverridden (ps : List Property) (os : List PropertyOverride) : List Property :=
  ps.map fun p ↦ p.overriddenBy (os.filter (addressedBy ps p))

@[simp] theorem overriddenBy_id (p : Property) (os : List PropertyOverride) :
    (p.overriddenBy os).id = p.id := by
  induction os generalizing p with
  | nil => rfl
  | cons o os ih => exact ih (o.apply p)

@[simp] theorem overriddenBy_title (p : Property) (os : List PropertyOverride) :
    (p.overriddenBy os).title = p.title := by
  induction os generalizing p with
  | nil => rfl
  | cons o os ih => exact ih (o.apply p)

theorem overriddenBy_append (p : Property) (earlier later : List PropertyOverride) :
    p.overriddenBy (earlier ++ later) = (p.overriddenBy earlier).overriddenBy later :=
  List.foldl_append

variable {ps : List Property} {p q : Property} {o : PropertyOverride}

theorem Separate.nodup (h : Separate ps) : ps.Nodup := h.ids.of_map

theorem Separate.eq_of_id_eq (h : Separate ps) (hp : p ∈ ps) (hq : q ∈ ps) (heq : p.id = q.id) :
    p = q :=
  List.inj_on_of_nodup_map h.ids hp hq heq

theorem Separate.of_append {qs : List Property} (h : Separate (ps ++ qs)) : Separate ps where
  ids := by
    have hids := h.ids
    rw [List.map_append] at hids
    exact hids.of_append_left
  titles p hp q hq := h.titles p (List.mem_append_left _ hp) q (List.mem_append_left _ hq)

end Property

namespace PropertyTable

open Property

variable {ps : List Property} {p : Property} {o : PropertyOverride}

/-- The property that is found is the one that is addressed. -/
theorem find?_eq_some_iff (h : Separate ps) (hp : p ∈ ps) :
    ({ properties := ps } : PropertyTable).find? o.selector = some p ↔ addressedBy ps p o := by
  rw [find?, addressedBy]
  simp only [decide_eq_true_eq, beq_eq_decide]
  cases hid : ps.find? (·.id = o.selector) with
  | none =>
    have hne : o.selector ≠ p.id := fun heq ↦ by
      simpa [heq] using List.find?_eq_none.mp hid p hp
    simp [hne]
  | some q =>
    have hq := List.mem_of_find?_eq_some hid
    have hselector : q.id = o.selector := by simpa using List.find?_some hid
    constructor
    · intro heq
      obtain rfl := Option.some.inj heq
      exact .inl hselector.symm
    · rintro (heq | hfind)
      · rw [h.eq_of_id_eq hq hp (hselector.trans heq)]
        rfl
      · have htitle : p.title = o.selector := by simpa using List.find?_some hfind
        rw [h.titles q hq p hp (hselector.trans htitle.symm)]
        rfl

theorem find?_isSome (ps : List Property) (selector : String) :
    (({ properties := ps } : PropertyTable).find? selector).isSome =
      ps.any (·.matches selector) := by
  rw [Bool.eq_iff_iff]
  simp [find?, Property.matches, and_or_left, exists_or]

theorem update_eq_self {t : PropertyTable} {selector : String} (h : t.find? selector = none)
    (change : Property → Property) : t.update selector change = t := by
  obtain ⟨hid, htitle⟩ := Option.or_eq_none_iff.mp h
  rw [update]
  rw [updateFirst_eq_self hid, updateFirst_eq_self htitle, ite_self]

theorem foldl_update_eq_self {t : PropertyTable} {os : List PropertyOverride}
    (h : ∀ o ∈ os, t.find? o.selector = none) :
    os.foldl (fun t o ↦ t.update o.selector o.apply) t = t := by
  induction os with
  | nil => rfl
  | cons o os ih =>
    rw [List.foldl_cons, update_eq_self (h o List.mem_cons_self)]
    exact ih fun o' ho' ↦ h o' (List.mem_cons_of_mem _ ho')

section Map

variable {f : Property → Property} (hid : ∀ p, (f p).id = p.id)
  (htitle : ∀ p, (f p).title = p.title)

include hid htitle

theorem find?_map (waiting : List PropertyOverride) (selector : String) :
    ({ properties := ps.map f, pending := waiting } : PropertyTable).find? selector =
      (({ properties := ps } : PropertyTable).find? selector).map f := by
  simp only [find?, List.find?_map, Function.comp_def, hid, htitle, Option.map_or]

theorem update_map (h : ps.Nodup) (waiting : List PropertyOverride) (selector : String)
    (change : Property → Property) :
    ({ properties := ps.map f, pending := waiting } : PropertyTable).update selector change =
      { properties := ps.map fun p ↦
          if ({ properties := ps } : PropertyTable).find? selector = some p then change (f p)
          else f p
        pending := waiting } := by
  simp only [update, List.any_map, Function.comp_def, hid, updateFirst_map h, htitle, find?]
  by_cases hany : ps.any (·.id == selector) = true
  · obtain ⟨q, hq⟩ := Option.isSome_iff_exists.mp (List.find?_isSome.mpr (List.any_eq_true.mp hany))
    simp only [hany, if_true, hq, Option.some_or]
  · have hnone : ps.find? (·.id == selector) = none := by simpa using hany
    simp only [hany, hnone, Option.none_or]
    rfl

end Map

end PropertyTable

/-! ## One step -/

namespace Property

variable {ps : List Property} {p q : Property} {os : List PropertyOverride} {o : PropertyOverride}

theorem Separate.ne_of_concat (h : Separate (ps ++ [q])) (hp : p ∈ ps) : p ≠ q :=
  (List.nodup_append.mp h.nodup).2.2 p hp q (List.mem_singleton_self q)

/-- One more property takes no override from those before it. -/
theorem addressedBy_concat_of_mem (h : Separate (ps ++ [q])) (hp : p ∈ ps) :
    addressedBy (ps ++ [q]) p o = addressedBy ps p o := by
  have hlast : ([q].find? (·.title = o.selector)) ≠ some p := fun hfind ↦
    h.ne_of_concat hp (List.mem_singleton.mp (List.mem_of_find?_eq_some hfind))
  simp only [addressedBy, List.find?_append, Option.or_eq_some_iff, hlast, and_false, or_false]

/-- One more property has the overrides that name it and none before it. -/
theorem addressedBy_concat_self (h : Separate (ps ++ [q])) :
    addressedBy (ps ++ [q]) q o = (q.matches o.selector && !ps.any (·.matches o.selector)) := by
  have hq : q ∈ ps ++ [q] := by simp
  have hmem {p : Property} (hp : p ∈ ps) : p ∈ ps ++ [q] := List.mem_append_left _ hp
  rw [Bool.eq_iff_iff]
  simp only [addressedBy, Property.matches, List.find?_append, Option.or_eq_some_iff,
    decide_eq_true_eq, Bool.and_eq_true, Bool.or_eq_true, beq_iff_eq, Bool.not_eq_true',
    List.any_eq_false]
  constructor
  · rintro (hid | hfind | ⟨hnone, hfind⟩)
    · refine ⟨.inl hid.symm, fun p hp hmatches ↦ h.ne_of_concat hp ?_⟩
      rcases hmatches with hmatches | hmatches
      · exact h.eq_of_id_eq (hmem hp) hq (hmatches.trans hid)
      · exact (h.titles q hq p (hmem hp) (hid.symm.trans hmatches.symm)).symm
    · exact absurd rfl (h.ne_of_concat (List.mem_of_find?_eq_some hfind))
    · have htitle : q.title = o.selector := by simpa using List.find?_some hfind
      refine ⟨.inr htitle, fun p hp hmatches ↦ ?_⟩
      rcases hmatches with hmatches | hmatches
      · exact h.ne_of_concat hp (h.titles p (hmem hp) q hq (hmatches.trans htitle.symm))
      · exact List.find?_eq_none.mp hnone p hp (by simpa using hmatches)
  · rintro ⟨hid | htitle, hnone⟩
    · exact .inl hid.symm
    · refine .inr (.inr ⟨List.find?_eq_none.mpr fun p hp htitle ↦ ?_, by simp [htitle]⟩)
      exact hnone p hp (.inr (by simpa using htitle))

/-- The properties `ps` have been added and the overrides `os` given. -/
structure Settled (ps : List Property) (os : List PropertyOverride) (t : PropertyTable) : Prop where
  properties : t.properties = allOverridden ps os
  pending : t.pending = os.filter fun o ↦ !ps.any (·.matches o.selector)

theorem put_eq_concat {l : List Property} (h : ∀ p ∈ l, p.id ≠ q.id) :
    PropertyTable.put q l = l ++ [q] := by
  induction l with
  | nil => rfl
  | cons p l ih =>
    have hp : p.id ≠ q.id := h p List.mem_cons_self
    rw [PropertyTable.put, if_neg hp, ih fun p' hp' ↦ h p' (List.mem_cons_of_mem _ hp')]
    rfl

/-- One more property comes last, with the overrides that name it and none before it. -/
theorem allOverridden_concat (h : Separate (ps ++ [q])) (os : List PropertyOverride) :
    allOverridden (ps ++ [q]) os = allOverridden ps os ++
      [q.overriddenBy (os.filter fun o ↦
        q.matches o.selector && !ps.any (·.matches o.selector))] := by
  have hothers : ∀ p ∈ ps, p.overriddenBy (os.filter (addressedBy (ps ++ [q]) p)) =
      p.overriddenBy (os.filter (addressedBy ps p)) := by
    intro p hp
    rw [List.filter_congr fun o _ ↦ addressedBy_concat_of_mem h hp]
  rw [allOverridden, List.map_append, List.map_congr_left hothers, allOverridden,
    List.map_singleton, List.filter_congr fun o _ ↦ addressedBy_concat_self h]

theorem Settled.add {t : PropertyTable} (ht : Settled ps os t) (h : Separate (ps ++ [q])) :
    Settled (ps ++ [q]) os (t.add q) where
  properties := by
    have hfresh : ∀ os', ∀ p ∈ allOverridden ps os, p.id ≠ (q.overriddenBy os').id := by
      intro os'
      refine List.forall_mem_map.mpr fun p hp hid ↦ ?_
      rw [overriddenBy_id, overriddenBy_id] at hid
      exact h.ne_of_concat hp (h.eq_of_id_eq (by simp [hp]) (by simp) hid)
    have hadd : (t.add q).properties = PropertyTable.put
        (q.overriddenBy (t.pending.filter (q.matches ·.selector))) t.properties := rfl
    rw [hadd, ht.properties, put_eq_concat (hfresh _), ht.pending, List.filter_filter,
      allOverridden_concat h]
  pending := by
    have hadd : (t.add q).pending = t.pending.filter (!q.matches ·.selector) := rfl
    rw [hadd, ht.pending, List.filter_filter]
    refine List.filter_congr fun o _ ↦ ?_
    simp [Bool.and_comm]

theorem Settled.eq {t : PropertyTable} (ht : Settled ps os t) :
    t = { properties := allOverridden ps os
          pending := os.filter fun o ↦ !ps.any (·.matches o.selector) } := by
  rw [← ht.properties, ← ht.pending]

theorem not_addressedBy (h : Separate ps) (hp : p ∈ ps) (hnone : ¬ps.any (·.matches o.selector)) :
    ¬addressedBy ps p o := by
  intro haddressed
  have hfind := (PropertyTable.find?_eq_some_iff h hp).mpr haddressed
  rw [← PropertyTable.find?_isSome, hfind] at hnone
  exact hnone rfl

theorem overriddenBy_filter_concat (p : Property) (os : List PropertyOverride)
    (o : PropertyOverride) :
    p.overriddenBy ((os ++ [o]).filter (addressedBy ps p)) =
      if addressedBy ps p o then o.apply (p.overriddenBy (os.filter (addressedBy ps p)))
      else p.overriddenBy (os.filter (addressedBy ps p)) := by
  rw [List.filter_append, overriddenBy_append]
  cases h : addressedBy ps p o <;> simp [h, overriddenBy]

theorem find?_allOverridden (waiting : List PropertyOverride) (selector : String) :
    ({ properties := allOverridden ps os, pending := waiting } : PropertyTable).find? selector =
      (({ properties := ps } : PropertyTable).find? selector).map fun p ↦
        p.overriddenBy (os.filter (addressedBy ps p)) :=
  PropertyTable.find?_map (by simp) (by simp) waiting selector

theorem Settled.configure {t : PropertyTable} (ht : Settled ps os t) (h : Separate ps) :
    Settled ps (os ++ [o]) (t.configure o) := by
  rw [ht.eq, PropertyTable.configure, find?_allOverridden, Option.isSome_map,
    PropertyTable.find?_isSome]
  split
  · rename_i hmatched
    rw [allOverridden, PropertyTable.update_map (by simp) (by simp) h.nodup]
    constructor
    · refine List.map_congr_left fun p hp ↦ ?_
      rw [overriddenBy_filter_concat]
      simp only [PropertyTable.find?_eq_some_iff h hp]
    · simp [hmatched]
  · rename_i hunmatched
    constructor
    · refine List.map_congr_left fun p hp ↦ ?_
      rw [overriddenBy_filter_concat, if_neg (not_addressedBy h hp hunmatched)]
    · simp [hunmatched]

theorem Settled.join {t : PropertyTable} (ht : Settled ps os t) :
    t.join = { properties := allOverridden ps os } := by
  have hnone : ∀ o ∈ t.pending,
      ({ properties := allOverridden ps os } : PropertyTable).find? o.selector = none := by
    rw [ht.pending]
    intro o ho
    obtain ⟨-, hunmatched⟩ := List.mem_filter.mp ho
    rw [← PropertyTable.find?_isSome] at hunmatched
    rw [find?_allOverridden]
    simpa using hunmatched
  rw [PropertyTable.join, ht.properties]
  exact PropertyTable.foldl_update_eq_self hnone

end Property

/-! ## All steps -/

/-- What is done to the properties of a description until they are joined. -/
inductive PropertyStep where
  | add (p : Property)
  | configure (o : PropertyOverride)

namespace PropertyStep

def apply (d : Description) : PropertyStep → Description
  | add p => d.addProperty p
  | configure o => d.configure o

def added? : PropertyStep → Option Property
  | add p => some p
  | configure _ => none

def given? : PropertyStep → Option PropertyOverride
  | add _ => none
  | configure o => some o

end PropertyStep

namespace Description

open Property PropertyStep

variable {d : Description} {steps : List PropertyStep}

/-- The description after steps in order. -/
def run (d : Description) (steps : List PropertyStep) : Description := steps.foldl apply d

/-- The properties that steps add. -/
def added (steps : List PropertyStep) : List Property := steps.filterMap added?

/-- The overrides that steps give. -/
def given (steps : List PropertyStep) : List PropertyOverride := steps.filterMap given?

theorem run_concat (d : Description) (steps : List PropertyStep) (s : PropertyStep) :
    d.run (steps ++ [s]) = s.apply (d.run steps) :=
  List.foldl_append

theorem run_withTable (d : Description) (steps : List PropertyStep) (t : PropertyTable) :
    { d.run steps with table := t } = { d with table := t } := by
  induction steps using List.reverseRecOn with
  | nil => rfl
  | append_singleton steps s ih =>
    rw [run_concat, ← ih]
    cases s <;> rfl

theorem added_append (steps later : List PropertyStep) :
    added (steps ++ later) = added steps ++ added later :=
  List.filterMap_append

theorem given_append (steps later : List PropertyStep) :
    given (steps ++ later) = given steps ++ given later :=
  List.filterMap_append

/-- Before they are joined, the properties have what has been given for them so far. -/
theorem settled_run (hd : d.table = {}) (h : Separate (added steps)) :
    Settled (added steps) (given steps) (d.run steps).table := by
  induction steps using List.reverseRecOn with
  | nil => exact ⟨congrArg PropertyTable.properties hd, congrArg PropertyTable.pending hd⟩
  | append_singleton steps s ih =>
    rw [added_append] at h
    have ht := ih h.of_append
    rw [added_append, given_append, run_concat]
    cases s with
    | add p =>
      have hgiven : given steps ++ given [.add p] = given steps := List.append_nil _
      rw [hgiven]
      exact ht.add h
    | configure o =>
      have hadded : added steps ++ added [.configure o] = added steps := List.append_nil _
      rw [hadded]
      exact ht.configure h.of_append

theorem joinProperties_run_eq (hd : d.table = {}) (h : Separate (added steps)) :
    (d.run steps).joinProperties =
      { d with table := { properties := allOverridden (added steps) (given steps) } } := by
  rw [joinProperties, (settled_run hd h).join, run_withTable]

/-- **What overrides add up to.**  How they were mixed with the properties does not show, and later
ones are applied to what earlier ones leave. -/
theorem joinProperties_run (hd : d.table = {}) (h : Separate (added steps)) :
    (d.run steps).joinProperties =
        { d with table := { properties := allOverridden (added steps) (given steps) } } ∧
      (∀ mixed, added mixed = added steps → given mixed = given steps →
        (d.run mixed).joinProperties = (d.run steps).joinProperties) ∧
      ∀ earlier later, steps = earlier ++ later →
        (d.run steps).joinProperties.properties = (added steps).map fun p ↦
          (p.overriddenBy ((given earlier).filter (addressedBy (added steps) p))).overriddenBy
            ((given later).filter (addressedBy (added steps) p)) := by
  refine ⟨joinProperties_run_eq hd h, fun mixed hadded hgiven ↦ ?_, ?_⟩
  · have hmixed : Separate (added mixed) := hadded ▸ h
    rw [joinProperties_run_eq hd h, joinProperties_run_eq hd hmixed, hadded, hgiven]
  · rintro earlier later rfl
    rw [joinProperties_run_eq hd h, properties]
    refine List.map_congr_left fun p _ ↦ ?_
    rw [given_append, List.filter_append, overriddenBy_append]

/-! Two properties have the title "text": the override by title waits for the first one, and the
other one is addressed by its identifier only. -/

def textSteps : List PropertyStep :=
  [.configure { selector := "text", getter? := some "getText" },
    .configure { selector := "gone", noDefaultValue := true },
    .add { id := "setText(String)", title := "text", kind := .beanSetter },
    .add { id := "setText(int)", title := "text", kind := .beanSetter },
    .configure { selector := "setText(int)", getter? := some "getTextId" },
    .configure { selector := "text", noDefaultValue := true }]

theorem joinProperties_run_textSteps : Separate (added textSteps) ∧
    ((ofClass (.pure "a.Label") (.ofName "a.Label")).run textSteps).joinProperties.properties =
      [{ id := "setText(String)", title := "text", kind := .beanSetter, getter? := some "getText",
         noDefaultValue := true },
       { id := "setText(int)", title := "text", kind := .beanSetter,
         getter? := some "getTextId" }] := by
  have hseparate : Separate (added textSteps) := ⟨by decide, by decide⟩
  refine ⟨hseparate, ?_⟩
  rw [(joinProperties_run rfl hseparate).1]
  rfl

end Description

end ComponentCatalog
