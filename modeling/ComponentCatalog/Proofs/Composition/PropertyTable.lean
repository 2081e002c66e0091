import ComponentCatalog.Proofs.Composition.History
import ComponentCatalog.Proofs.Resolver.Resolution

/-!
# The table of properties

Layers add properties and override them in any order, and one layer may put a property in place of
another one.  All the same, at every point of every history of a description
(`Description.consistent_after`):

* no two properties have the same identifier;
* an override waits only as long as no property has its selector as identifier or title.

So when the table is joined, which a resolution does in the end, there is **nothing left to
override**: the properties stay as they are, and the overrides that still wait are dropped.

The second half is what needs care, as it speaks of properties and overrides at a time.  It looks
at a property's identifier and title alone, which no override changes (`Property.names`).
-/

set_option autoImplicit false

namespace ComponentCatalog

/-! ## Names -/

namespace Property

/-- What a selector can be. -/
def names (p : Property) : String × String := (p.id, p.title)

theorem matches_congr {p q : Property} (h : q.names = p.names) (selector : String) :
    q.matches selector = p.matches selector := by
  obtain ⟨hid, htitle⟩ := Prod.mk.inj h
  rw [Property.matches, Property.matches, hid, htitle]

theorem names_overriddenBy (p : Property) (os : List PropertyOverride) :
    (p.overriddenBy os).names = p.names := by
  rw [names, overriddenBy_id, overriddenBy_title, names]

end Property

namespace PropertyTable

variable {t t' : PropertyTable} {l : List Property} {p q : Property} {o : PropertyOverride}

theorem mem_put (h : q ∈ put p l) : q = p ∨ q ∈ l := by
  induction l with
  | nil => exact .inl (List.mem_singleton.mp h)
  | cons r l ih =>
    rw [put] at h
    split at h
    · exact (List.mem_cons.mp h).imp_right (List.mem_cons_of_mem r)
    · obtain rfl | h := List.mem_cons.mp h
      · exact .inr List.mem_cons_self
      · exact (ih h).imp_right (List.mem_cons_of_mem r)

theorem nodup_ids_put (h : (l.map (·.id)).Nodup) (p : Property) :
    ((put p l).map (·.id)).Nodup := by
  induction l with
  | nil => exact List.nodup_singleton p.id
  | cons r l ih =>
    obtain ⟨hr, hl⟩ := List.nodup_cons.mp h
    rw [put]
    split
    · rename_i hid
      rw [List.map_cons, ← hid]
      exact h
    · rename_i hid
      refine List.nodup_cons.mpr ⟨fun hmem ↦ ?_, ih hl⟩
      obtain ⟨q, hq, heq⟩ := List.mem_map.mp hmem
      obtain rfl | hq := mem_put hq
      · exact hid heq.symm
      · exact hr (List.mem_map.mpr ⟨q, hq, heq⟩)

theorem find?_eq_none_iff {selector : String} :
    t.find? selector = none ↔ ∀ p ∈ t.properties, p.matches selector = false := by
  have hfind : t.find? selector = ({ properties := t.properties } : PropertyTable).find? selector :=
    rfl
  rw [← Option.not_isSome_iff_eq_none, hfind, find?_isSome]
  simp only [List.any_eq_true, not_exists, not_and, Bool.not_eq_true]

theorem map_names_update (t : PropertyTable) (o : PropertyOverride) :
    (t.update o.selector o.apply).properties.map (·.names) = t.properties.map (·.names) := by
  have happly : ∀ p : Property, (o.apply p).names = p.names := fun _ ↦ rfl
  rw [update]
  dsimp only
  split
  · exact map_updateFirst happly _ _
  · exact map_updateFirst happly _ _

/-! ## Consistent tables -/

/-- Identifiers tell the properties apart, and no override waits for a property that is there. -/
structure Consistent (t : PropertyTable) : Prop where
  ids : (t.properties.map (·.id)).Nodup
  waiting : ∀ o ∈ t.pending, ∀ p ∈ t.properties, p.matches o.selector = false

namespace Consistent

theorem empty : Consistent {} := ⟨List.nodup_nil, List.forall_mem_nil _⟩

/-- Only the names of properties count. -/
theorem congr (ht : t.Consistent)
    (hnames : t'.properties.map (·.names) = t.properties.map (·.names))
    (hpending : t'.pending = t.pending) : t'.Consistent where
  ids := by
    have hids := congrArg (List.map Prod.fst) hnames
    rw [List.map_map, List.map_map] at hids
    exact (congrArg List.Nodup hids).mpr ht.ids
  waiting o ho p hp := by
    have hmem : p.names ∈ t.properties.map (·.names) := hnames ▸ List.mem_map_of_mem hp
    obtain ⟨q, hq, hpq⟩ := List.mem_map.mp hmem
    rw [Property.matches_congr hpq.symm]
    exact ht.waiting o (hpending ▸ ho) q hq

/-- A new property takes along the overrides that wait for it, so none of those that stay does. -/
theorem add (ht : t.Consistent) (p : Property) : (t.add p).Consistent where
  ids := nodup_ids_put ht.ids _
  waiting o ho q hq := by
    obtain ⟨ho, hnot⟩ := List.mem_filter.mp ho
    obtain rfl | hq := mem_put hq
    · exact (Property.matches_congr (p.names_overriddenBy _) _).trans (by simpa using hnot)
    · exact ht.waiting o ho q hq

theorem configure (ht : t.Consistent) (o : PropertyOverride) : (t.configure o).Consistent := by
  rw [PropertyTable.configure]
  split
  · exact ht.congr (map_names_update t o) rfl
  · rename_i hnone
    have hnone := find?_eq_none_iff.mp (Option.not_isSome_iff_eq_none.mp hnone)
    refine ⟨ht.ids, fun o' ho' ↦ ?_⟩
    obtain ho' | ho' := List.mem_append.mp ho'
    · exact ht.waiting o' ho'
    · obtain rfl := List.mem_singleton.mp ho'
      exact hnone

/-- **Joining a consistent table** changes no property. -/
theorem join_eq (ht : t.Consistent) : t.join = { properties := t.properties } :=
  foldl_update_eq_self fun o ho ↦ find?_eq_none_iff.mpr (ht.waiting o ho)

theorem join (ht : t.Consistent) : t.join.Consistent := by
  rw [ht.join_eq]
  exact ⟨ht.ids, List.forall_mem_nil _⟩

end Consistent

end PropertyTable

/-! ## Histories -/

namespace Description

/-- Every step of a history keeps the table consistent, in whatever settings. -/
theorem invariant_consistent : Invariant (fun _ ↦ True) (·.table.Consistent) where
  member := by
    intro s _ d e hstep hd
    cases hstep with
    | property p => exact hd.add p
    | override o => exact hd.configure o
    | constructor n => exact hd
    | newMethod className m hdecl hnew => exact hd
    | annotate n => exact hd
    | order signature order => exact hd
    | exclude pattern => exact hd
  frame hsame hd := hsame.table ▸ hd
  property step hd := by
    cases step with
    | add p => exact hd.add p
    | configure o => exact hd.configure o
  join hd := hd.join

theorem consistent_ofClass_after (key : Key) (c : ClassDecl) (steps : List CompositionStep) :
    ((ofClass key c).after steps).table.Consistent :=
  invariant_consistent.after PropertyTable.Consistent.empty fun _ _ _ _ ↦ trivial

/-- Completing a description that layers have left joins the table and does no more to it. -/
theorem table_of_complete {r : Resolver} {layers : List LayerResource} {last : LayerResource}
    {d e : Description} (h : r.complete layers last d = .ok e) : e.table = d.table.join := by
  obtain ⟨toolkit, icon?, -, -, -, rfl⟩ := Resolver.complete_eq_ok_iff.mp h
  rfl

/-- **The table of properties is consistent** at every point of every history.  So to join it only
drops the overrides that still wait, each of which names no property; and a resolution, which joins
the table after the layers, leaves the properties as they are. -/
theorem consistent_after (key : Key) (c : ClassDecl) :
    (∀ steps, let d := (ofClass key c).after steps
      d.table.Consistent ∧ (∀ o ∈ d.table.pending, d.property? o.selector = none) ∧
        d.joinProperties = { d with table := { properties := d.properties } }) ∧
    ∀ (r : Resolver) s layers last m e, layers.foldlM (r.applyLayer s) (ofClass key c) = .ok m →
      r.complete layers last m = .ok e → e.table = { properties := m.properties } := by
  have hconsistent := consistent_ofClass_after key c
  refine ⟨fun steps ↦ ⟨hconsistent steps, ?_, ?_⟩, fun r s layers last m e hm he ↦ ?_⟩
  · intro o ho
    exact PropertyTable.find?_eq_none_iff.mpr ((hconsistent steps).waiting o ho)
  · rw [joinProperties, (hconsistent steps).join_eq]
    rfl
  · obtain ⟨documents, -, hcompose⟩ := Resolver.foldlM_applyLayer_eq_ok_iff.mp hm
    rw [table_of_complete he, eq_after_of_compose hcompose, (hconsistent _).join_eq]
    rfl

/-! A knob whose one layer adds a property, overrides it and gives an override for another one,
which waits in vain. -/

def knobText : Bytes :=
  Xml.asciiBytes <| "<component><toolkit id='swt'/><model class='a.KnobInfo'/>" ++
    "<properties-noDefaultValue names='Value gone'/><add-property id='value' title='Value'/>" ++
    "</component>"

def knobLayer : LayerResource :=
  { className := "a.Knob"
    resource :=
      { path := "a/Knob.wbp-component.xml", bundle? := none, toolkit? := none
        location := .memory knobText } }

def knobResolver : Resolver where
  classPath := .root
  locator := ⟨fun _ ↦ none, fun _ _ ↦ false⟩
  rules := [StandardRules.toolkit, StandardRules.model, StandardRules.noDefaultValue,
    StandardRules.configurableProperty]

theorem consistent_after_knob : ∃ m e,
    [knobLayer].foldlM (knobResolver.applyLayer (knobResolver.setting []))
      (ofClass (.pure "a.Knob") { name := "a.Knob" }) = .ok m ∧
    knobResolver.complete [knobLayer] knobLayer m = .ok e ∧
    m.table.pending = [{ selector := "gone", noDefaultValue := true }] ∧
    e.table = { properties :=
      [{ id := "value", title := "Value", kind := .configurable, noDefaultValue := true }] } := by
  let document : ClassLayer :=
    ⟨{ toolkit? := some "swt", modelClass? := some "a.KnobInfo", noDefaultValue := ["Value", "gone"]
       configurableProperties := [{ id := "value", title := "Value", kind := .configurable }] },
      "a.Knob"⟩
  have hroot : Xml.read knobText =
      some { name := "component", children := [
        { name := "toolkit", attributes := .ofList [("id", "swt")] },
        { name := "model", attributes := .ofList [("class", "a.KnobInfo")] },
        { name := "properties-noDefaultValue", attributes := .ofList [("names", "Value gone")] },
        { name := "add-property",
          attributes := .ofList [("id", "value"), ("title", "Value")] }] } :=
    Xml.read_of_readVerbatim? (by decide +kernel)
  have hread : knobResolver.readLayer knobLayer = .ok document :=
    Resolver.readLayer_of_document (Rules.readLayer_eq_ok rfl hroot rfl)
  have hdocuments : [knobLayer].mapM knobResolver.readLayer = .ok [document] := by
    rw [List.mapM_cons, hread]
    rfl
  have hcompose : (ofClass (.pure "a.Knob") { name := "a.Knob" }).compose
      (knobResolver.setting []) [document] = .ok _ := rfl
  have hm := Resolver.foldlM_applyLayer_eq_ok_iff.mpr ⟨_, hdocuments, hcompose⟩
  obtain ⟨e, he⟩ : ∃ e, knobResolver.complete [knobLayer] knobLayer _ = .ok e :=
    Resolver.exists_complete_eq_ok hcompose rfl (ClassPath.searchEnds_of_parents_eq_nil rfl) rfl _
  exact ⟨_, e, hm, he, rfl, (consistent_after _ _).2 knobResolver _ _ _ _ _ hm he⟩

end Description

end ComponentCatalog
