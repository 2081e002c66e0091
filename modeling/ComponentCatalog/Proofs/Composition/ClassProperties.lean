import ComponentCatalog.Proofs.Composition.Parts
import ComponentCatalog.Proofs.Composition.PropertyTable

/-!
# Asking for the properties of the class

A layer can ask for the properties of the class: those behind setters, and those behind public
fields.  The layer of a subclass may ask again, when the description has been filled and overridden,
and **nothing is lost by that** (`LayerDocument.apply_classProperties`):

* the properties that are there stay as they are, at their places, and each selector goes on to
  find the property that it found;
* a property of the class is appended unless its identifier is the identifier or the title of a
  property that is there by then (`Property.newAmong`), be it one that was appended just before: so
  the property behind a setter can stand in for a field of the same name;
* it takes the overrides that wait for it, and these wait no longer (`Property.taking`);
* asking once more changes nothing.

All of this looks at the identifiers and titles of properties alone, which no override changes.
-/

set_option autoImplicit false

namespace ComponentCatalog

/-! ## New properties -/

namespace Property

/-- Of some properties those whose identifiers select nothing when it is their turn: neither one of
`present` nor one that was taken before. -/
def newAmong (present : List Property) : List Property → List Property
  | [] => []
  | p :: ps =>
    if present.any (·.matches p.id) then newAmong present ps else p :: newAmong (present ++ [p]) ps

/-- The properties with the overrides that wait for them, given one after the other: each takes
those that name it and leaves the others. -/
def taking (waiting : List PropertyOverride) : List Property → List Property
  | [] => []
  | p :: ps =>
    p.overriddenBy (waiting.filter (p.matches ·.selector)) ::
      taking (waiting.filter (!p.matches ·.selector)) ps

variable {present present' ps qs : List Property} {p q : Property}
  {waiting : List PropertyOverride}

/-- Whether a selector finds a property depends on names only. -/
theorem any_matches_congr (h : present'.map (·.names) = present.map (·.names)) (selector : String) :
    present'.any (·.matches selector) = present.any (·.matches selector) := by
  have hnames : ∀ l : List Property, l.any (·.matches selector) =
      (l.map (·.names)).any fun names ↦ names.1 == selector || names.2 == selector :=
    fun l ↦ by rw [List.any_map]; rfl
  rw [hnames, hnames, h]

theorem newAmong_congr (h : present'.map (·.names) = present.map (·.names)) (ps : List Property) :
    newAmong present' ps = newAmong present ps := by
  induction ps generalizing present present' with
  | nil => rfl
  | cons p ps ih =>
    have hnext : (present' ++ [p]).map (·.names) = (present ++ [p]).map (·.names) := by
      rw [List.map_append, List.map_append, h]
    rw [newAmong, newAmong, any_matches_congr h, ih h, ih hnext]

theorem newAmong_sublist (present ps : List Property) : (newAmong present ps).Sublist ps := by
  induction ps generalizing present with
  | nil => exact List.Sublist.refl _
  | cons p ps ih =>
    rw [newAmong]
    split
    · exact (ih present).cons p
    · exact (ih (present ++ [p])).cons_cons p

theorem newAmong_eq_nil (h : ∀ p ∈ ps, present.any (·.matches p.id)) :
    newAmong present ps = [] := by
  induction ps with
  | nil => rfl
  | cons p ps ih =>
    obtain ⟨hp, hps⟩ := List.forall_mem_cons.mp h
    rw [newAmong, if_pos hp, ih hps]

/-- No property is in the way of a new one. -/
theorem not_matches_of_mem_newAmong (hp : p ∈ newAmong present ps) (hq : q ∈ present) :
    q.matches p.id = false := by
  induction ps generalizing present with
  | nil => cases hp
  | cons r ps ih =>
    rw [newAmong] at hp
    split at hp
    · exact ih hp hq
    · rename_i hr
      obtain rfl | hp := List.mem_cons.mp hp
      · simpa using fun h ↦ hr (List.any_eq_true.mpr ⟨q, hq, h⟩)
      · exact ih hp (List.mem_append_left _ hq)

/-- In the end there is a property for every identifier. -/
theorem any_matches_newAmong (hp : p ∈ ps) :
    (present ++ newAmong present ps).any (·.matches p.id) := by
  induction ps generalizing present with
  | nil => cases hp
  | cons r ps ih =>
    rw [newAmong]
    split
    · rename_i hr
      obtain rfl | hp := List.mem_cons.mp hp
      · rw [List.any_append, hr, Bool.true_or]
      · exact ih hp
    · rw [List.append_cons]
      obtain rfl | hp := List.mem_cons.mp hp
      · simp [Property.matches]
      · exact ih hp

theorem map_names_taking (waiting : List PropertyOverride) (ps : List Property) :
    (taking waiting ps).map (·.names) = ps.map (·.names) := by
  induction ps generalizing waiting with
  | nil => rfl
  | cons p ps ih => rw [taking, List.map_cons, names_overriddenBy, ih, List.map_cons]

theorem taking_append (waiting : List PropertyOverride) (ps qs : List Property) :
    taking waiting (ps ++ qs) =
      taking waiting ps ++ taking (waiting.filter fun o ↦ ps.all (!·.matches o.selector)) qs := by
  induction ps generalizing waiting with
  | nil => exact congrArg (taking · qs) (List.filter_true waiting).symm
  | cons p ps ih =>
    rw [List.cons_append, taking, ih, List.filter_filter, taking, List.cons_append]
    simp only [List.all_cons, Bool.and_comm]

theorem length_taking (waiting : List PropertyOverride) (ps : List Property) :
    (taking waiting ps).length = ps.length := by
  rw [← List.length_map (·.names), map_names_taking, List.length_map]

/-- A property takes the overrides that name it and none before it, in their order. -/
theorem getElem?_taking (waiting : List PropertyOverride) (ps : List Property) (p : Property)
    (qs : List Property) :
    (taking waiting (ps ++ p :: qs))[ps.length]? =
      some (p.overriddenBy (waiting.filter fun o ↦
        p.matches o.selector && ps.all (!·.matches o.selector))) := by
  rw [taking_append, taking, ← length_taking waiting ps, List.getElem?_append_right le_rfl,
    Nat.sub_self, List.getElem?_cons_zero, List.filter_filter]

end Property

/-! ## Tables -/

namespace PropertyTable

open Property

variable {t : PropertyTable} {ps new : List Property} {p q : Property}

/-- The table with new properties, which take the overrides that wait for them. -/
def append (t : PropertyTable) (new : List Property) : PropertyTable where
  properties := t.properties ++ taking t.pending new
  pending := t.pending.filter fun o ↦ new.all (!·.matches o.selector)

theorem append_nil (t : PropertyTable) : t.append [] = t := by
  have hproperties : t.properties ++ [] = t.properties := List.append_nil _
  have hpending : t.pending.filter (fun _ ↦ true) = t.pending := List.filter_true _
  rw [append, taking, hproperties]
  exact congrArg (PropertyTable.mk t.properties) hpending

theorem append_append (t : PropertyTable) (ps qs : List Property) :
    (t.append ps).append qs = t.append (ps ++ qs) := by
  rw [append, append, append, taking_append, List.append_assoc, List.filter_filter]
  simp only [List.all_append, Bool.and_comm]

theorem map_names_append (t : PropertyTable) (new : List Property) :
    (t.append new).properties.map (·.names) = (t.properties ++ new).map (·.names) := by
  rw [append, List.map_append, map_names_taking, List.map_append]

/-- A property without one of its identifier is added at the end. -/
theorem add_eq_append (h : ∀ q ∈ t.properties, q.matches p.id = false) :
    t.add p = t.append [p] := by
  have hput : ∀ q ∈ t.properties,
      q.id ≠ (p.overriddenBy (t.pending.filter (p.matches ·.selector))).id := by
    intro q hq
    have hmatches := h q hq
    rw [overriddenBy_id]
    simp only [Property.matches, Bool.or_eq_false_iff, beq_eq_false_iff_ne] at hmatches
    exact hmatches.1
  have hadd : t.add p =
      { properties := put (p.overriddenBy (t.pending.filter (p.matches ·.selector))) t.properties
        pending := t.pending.filter (!p.matches ·.selector) } := rfl
  rw [hadd, put_eq_concat hput, append, taking, taking]
  simp only [List.all_cons, List.all_nil, Bool.and_true]

/-- A selector goes on to find what it found: new properties come last, and none of them has an
identifier that selects a property. -/
theorem find?_append {selector : String}
    (hnew : ∀ p ∈ new, ∀ q ∈ t.properties, q.matches p.id = false)
    (h : t.find? selector = some q) : (t.append new).find? selector = some q := by
  rw [find?] at h ⊢
  rw [append, List.find?_append, List.find?_append]
  cases hid : t.properties.find? (·.id == selector) with
  | some q' =>
    rw [hid] at h
    exact h
  | none =>
    rw [hid, Option.none_or] at h
    have hnone : (taking t.pending new).find? (·.id == selector) = none := by
      refine List.find?_eq_none.mpr fun p' hp' hselector ↦ ?_
      have hmem : p'.names ∈ new.map (·.names) :=
        map_names_taking t.pending new ▸ List.mem_map_of_mem hp'
      obtain ⟨p, hp, hnames⟩ := List.mem_map.mp hmem
      have hid' : p'.id = selector := by simpa using hselector
      have hp_id : p.id = selector := (congrArg Prod.fst hnames).trans hid'
      have htitle : q.title = selector := by simpa using List.find?_some h
      have hmatches := hnew p hp q (List.mem_of_find?_eq_some h)
      simp [Property.matches, hp_id, htitle] at hmatches
    rw [hnone, h]
    rfl

end PropertyTable

/-! ## Descriptions -/

namespace Description

open Property

theorem addNewProperties_eq (d : Description) (ps : List Property) :
    d.addNewProperties ps = { d with table := d.table.append (newAmong d.properties ps) } := by
  induction ps generalizing d with
  | nil =>
    rw [newAmong, PropertyTable.append_nil]
    rfl
  | cons p ps ih =>
    have hsome : (d.property? p.id).isSome = d.properties.any (·.matches p.id) :=
      PropertyTable.find?_isSome d.properties p.id
    have hcons : d.addNewProperties (p :: ps) = (d.addNewProperty p).addNewProperties ps := rfl
    rw [hcons, addNewProperty, hsome, newAmong]
    cases hany : d.properties.any (·.matches p.id) with
    | true => exact ih d
    | false =>
      have hnone : ∀ q ∈ d.properties, q.matches p.id = false := by
        simpa using List.any_eq_false.mp hany
      have hadd : d.addProperty p = { d with table := d.table.append [p] } :=
        congrArg (fun table ↦ { d with table }) (PropertyTable.add_eq_append hnone)
      have hnames : (d.table.append [p]).properties.map (·.names) =
          (d.properties ++ [p]).map (·.names) := d.table.map_names_append [p]
      rw [if_neg Bool.false_ne_true, if_neg Bool.false_ne_true, ih, hadd]
      dsimp only [properties]
      rw [newAmong_congr hnames, PropertyTable.append_append]
      rfl

end Description

/-! ## Layers -/

namespace LayerDocument

open Property

/-- The properties of the class that a layer asks for. -/
def classProperties (s : Setting) (layer : LayerDocument) : List Property :=
  (if layer.beanProperties then (BeanProperty.ofHierarchy s.hierarchy).map (·.toProperty)
    else []) ++
  if layer.fieldProperties then (Hierarchy.fields s.hierarchy).map (·.toProperty) else []

theorem addClassProperties_eq (s : Setting) (layer : LayerDocument) (d : Description) :
    layer.addClassProperties s d = d.addNewProperties (layer.classProperties s) := by
  have happend : ∀ ps qs : List Property, d.addNewProperties (ps ++ qs) =
      (d.addNewProperties ps).addNewProperties qs := fun _ _ ↦ List.foldl_append
  rw [addClassProperties, classProperties, happend]
  cases layer.beanProperties <;> cases layer.fieldProperties <;> rfl

/-- A layer that asks for properties of the class and for nothing else. -/
def ofClassProperties (beanProperties fieldProperties : Bool) : LayerDocument :=
  { beanProperties, fieldProperties }

theorem apply_ofClassProperties (s : Setting) (beanProperties fieldProperties : Bool)
    (layerClass : String) (d : Description) :
    (ofClassProperties beanProperties fieldProperties).apply s layerClass d =
      ({ d with
          currentClass? := some layerClass
          table := d.table.append (newAmong d.properties
            ((ofClassProperties beanProperties fieldProperties).classProperties s)) }, none) := by
  have hhead : (ofClassProperties beanProperties fieldProperties).applyHead s layerClass d =
      { d with currentClass? := some layerClass } := by
    have hparameters : d.parameters.overlay .empty = d.parameters := rfl
    simp [applyHead, ofClassProperties, hparameters]
  have happly : (ofClassProperties beanProperties fieldProperties).apply s layerClass d =
      ((ofClassProperties beanProperties fieldProperties).addClassProperties s
        { d with currentClass? := some layerClass }, none) := by
    rw [← hhead]
    rfl
  rw [happly, addClassProperties_eq, Description.addNewProperties_eq]
  rfl

end LayerDocument

end ComponentCatalog
