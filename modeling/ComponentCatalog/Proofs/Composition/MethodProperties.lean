import ComponentCatalog.Proofs.Composition.PropertyTable
import ComponentCatalog.Proofs.Layer.MethodProperties

/-!
# Applying method properties

**What an element sets for a property that is made of a method stays with that property.**  When the
declaration of the element is applied, the property comes in place of the first one with the
signature of the method as identifier, or at the end.  It has the title and the type, then the
overrides that waited for it, then what the elements inside set.  All other properties stay as they
are, and what the elements set does not have to wait (`apply_single_of_read`).

The override of a declaration is applied by way of its selector, which is the text of the method as
the layer has it.  That is the signature of the method found, hence the identifier of the property
just put in place; so it is found before any property with that title is looked for.
-/

set_option autoImplicit false

namespace ComponentCatalog

open Xml

/-! ## Putting properties in place -/

namespace PropertyTable

/-- The second list is the first one with the property in place of the first one with its
identifier, or at the end if there is none. -/
def PutInPlace (q : Property) (l l' : List Property) : Prop :=
  ∃ before old? after, l = before ++ old?.toList ++ after ∧ l' = before ++ q :: after ∧
    (∀ p ∈ before, p.id ≠ q.id) ∧ (∀ p ∈ old?, p.id = q.id) ∧ (old? = none → after = [])

variable {q : Property} {l l' : List Property}

theorem putInPlace_put (q : Property) (l : List Property) : PutInPlace q l (put q l) := by
  induction l with
  | nil =>
    refine ⟨[], none, [], rfl, rfl, List.forall_mem_nil _, fun p hp ↦ ?_, fun _ ↦ rfl⟩
    exact absurd hp (Option.not_mem_none p)
  | cons p l ih =>
    rw [put]
    split
    · rename_i hid
      refine ⟨[], some p, l, rfl, rfl, List.forall_mem_nil _, ?_, fun h ↦ ?_⟩
      · rintro _ ⟨rfl⟩
        exact hid
      · exact absurd h (Option.some_ne_none p)
    · rename_i hid
      obtain ⟨before, old?, after, hl, hput, hbefore, hold, hnone⟩ := ih
      refine ⟨p :: before, old?, after, ?_, ?_, ?_, hold, hnone⟩
      · rw [List.cons_append, List.cons_append, ← hl]
      · rw [hput, List.cons_append]
      · exact List.forall_mem_cons.mpr ⟨hid, hbefore⟩

theorem PutInPlace.find? (h : PutInPlace q l l') : l'.find? (·.id == q.id) = some q := by
  obtain ⟨before, old?, after, -, rfl, hbefore, -, -⟩ := h
  have hnone : before.find? (·.id == q.id) = none := by
    rw [List.find?_eq_none]
    exact fun p hp ↦ by simpa using hbefore p hp
  rw [List.find?_append, hnone, List.find?_cons, beq_self_eq_true]
  rfl

/-- To change the property just put in place is to put the changed one there. -/
theorem updateFirst_put {change : Property → Property} (hid : (change q).id = q.id)
    (l : List Property) : updateFirst (·.id == q.id) change (put q l) = put (change q) l := by
  induction l with
  | nil => rw [put, updateFirst, beq_self_eq_true]; rfl
  | cons p l ih =>
    rw [put, put, hid]
    split
    · rw [updateFirst, beq_self_eq_true]
      rfl
    · rename_i hp
      rw [updateFirst, beq_false_of_ne hp, ih]
      rfl

/-- An override with the identifier of the property just added is applied to it, after those that
waited. -/
theorem configure_add (t : PropertyTable) (p : Property) {o : PropertyOverride}
    (h : o.selector = p.id) :
    (t.add p).configure o =
      { properties :=
          put (o.apply (p.overriddenBy (t.pending.filter (p.matches ·.selector)))) t.properties
        pending := t.pending.filter (!p.matches ·.selector) } := by
  let q := p.overriddenBy (t.pending.filter (p.matches ·.selector))
  -- The selector is the identifier of `q`, which is looked for before any title.
  have hselector : o.selector = q.id := h.trans (Property.overriddenBy_id p _).symm
  have hadd : t.add p = ⟨put q t.properties, t.pending.filter (!p.matches ·.selector)⟩ := rfl
  have hfound : (put q t.properties).find? (·.id == o.selector) = some q := by
    rw [hselector]
    exact (putInPlace_put q t.properties).find?
  have hany : (put q t.properties).any (·.id == o.selector) = true :=
    List.any_eq_true.mpr (List.find?_isSome.mp (by rw [hfound]; rfl))
  have hsome : ((t.add p).find? o.selector).isSome = true := by
    rw [hadd, find?, hfound]
    rfl
  rw [configure, if_pos hsome, hadd, update]
  dsimp only
  rw [if_pos hany, hselector, updateFirst_put rfl]

end PropertyTable

/-- An override that sets nothing. -/
theorem PropertyOverride.apply_nothing (selector : String) (p : Property) :
    apply { selector } p = p := by
  simp [apply]

/-! ## Applying declarations -/

namespace MethodProperty

variable {p : MethodProperty} {s : Setting} {d : Description} {className typeName : String}
  {m : MethodDecl}

/-- The declaration of a method with one parameter adds the property, with what it sets after the
overrides that waited. -/
theorem apply_eq (hsingle : p.single) (hselector : p.override.selector = p.method)
    (hfind : Hierarchy.findMethod? s.hierarchy p.method = some (className, m))
    (htypes : m.parameterTypes = [typeName]) :
    let base : Property :=
      { id := m.signature, title := p.title, kind := .singleMethod, typeName? := some typeName }
    p.apply s d = ({ d with
      table := {
        properties := PropertyTable.put (p.override.apply
          (base.overriddenBy (d.table.pending.filter (base.matches ·.selector)))) d.table.properties
        pending := d.table.pending.filter (!base.matches ·.selector) } }, none) := by
  intro base
  have hproperty : p.toProperty m = base := by
    rw [toProperty, if_pos hsingle, htypes]
    rfl
  have hone : ¬(p.single ∧ m.parameterTypes.length ≠ 1) := by simp [htypes]
  rw [apply, hfind]
  dsimp only
  rw [if_neg hone, hproperty]
  have hid : p.method = base.id := (Setting.declares_of_findMethod? hfind).2.symm
  cases hoverride : p.override? with
  | none =>
    have hnothing : p.override = { selector := p.method } := by rw [override, hoverride]; rfl
    rw [hnothing, PropertyOverride.apply_nothing]
    rfl
  | some o =>
    have hsame : p.override = o := by rw [override, hoverride]; rfl
    rw [hsame] at hselector ⊢
    have hconfigure := d.table.configure_add base (hselector.trans hid)
    exact congrArg (fun table ↦ ({ d with table }, none)) hconfigure

/-- Outside strict settings, a declaration of a method that is not there changes nothing. -/
theorem apply_eq_of_findMethod?_eq_none
    (hfind : Hierarchy.findMethod? s.hierarchy p.method = none)
    (hstrict : s.strictMembers = false) : p.apply s d = (d, none) := by
  rw [apply, hfind]
  dsimp only
  rw [Setting.unknownMember, hstrict]
  rfl

open StandardRules in
/-- **What is set inside the element of a method property stays with that property.**  The
declarations of a layer are those of its elements, in order.  When that of an element for a method
with one parameter is applied, the property of the method has the title and the type, then the
overrides that waited for it, in their order, then what the elements inside set.  No other property
changes, no more overrides wait, and nothing else of the description changes.  If there is no such
method, the description stays as it was. -/
theorem apply_single_of_read {bytes : Bytes} {root : Element} {document : LayerDocument}
    (hread : Xml.read bytes = some root) (hparse : Rules.apply standardRules root = .ok document) :
    List.Forall₂ Declares (root.children.filter IsMethodProperty) document.methodProperties ∧
    ∀ e p, Declares e p → e.name = singleName → ∀ (s : Setting) (d : Description),
      (∀ className m typeName,
        Hierarchy.findMethod? s.hierarchy p.method = some (className, m) →
        m.parameterTypes = [typeName] →
          let base : Property :=
            { id := m.signature, title := p.title, kind := .singleMethod,
              typeName? := some typeName }
          let waiting := d.table.pending.filter (base.matches ·.selector)
          let q := (PropertyOverride.nested p.method e.children).apply (base.overriddenBy waiting)
          ∃ d', p.apply s d = (d', none) ∧ d'.property? m.signature = some q ∧
            PropertyTable.PutInPlace q d.table.properties d'.table.properties ∧
            d'.table.pending = d.table.pending.filter (!base.matches ·.selector) ∧
            d' = { d with table := d'.table }) ∧
      (Hierarchy.findMethod? s.hierarchy p.method = none → s.strictMembers = false →
        p.apply s d = (d, none)) := by
  refine ⟨forall₂_declares (plain_of_read hread) hparse, fun e p hdeclares hname s d ↦
    ⟨fun className m typeName hfind htypes ↦ ?_, apply_eq_of_findMethod?_eq_none⟩⟩
  have hsingle : p.single = true := hdeclares.single.mpr hname
  have hoverride : p.override = .nested p.method e.children := by
    rw [hdeclares.override, if_pos hsingle]
  have happly := apply_eq (d := d) hsingle (by rw [hoverride]; rfl) hfind htypes
  rw [hoverride] at happly
  intro base waiting q
  have hid : q.id = m.signature := Property.overriddenBy_id base waiting
  have hplace := PropertyTable.putInPlace_put q d.table.properties
  refine ⟨_, happly, ?_, hplace, rfl, rfl⟩
  have hfound := hplace.find?
  rw [hid] at hfound
  exact Option.or_eq_some_iff.mpr (.inl hfound)

/-! A volume that is shown on a slider, for which a tag waits. -/

def volumeText : Bytes :=
  Xml.asciiBytes <| "<component><method-single-property title='volume' method='setVolume(int)'>" ++
    "<editor id='slider'><parameter name='max'>11</parameter></editor></method-single-property>" ++
    "</component>"

def sliderElement : Element where
  name := "editor"
  attributes := .ofList [("id", "slider")]
  children := [{ name := "parameter", attributes := .ofList [("name", "max")], text := "11" }]

def volumeElement : Element where
  name := "method-single-property"
  attributes := .ofList [("title", "volume"), ("method", "setVolume(int)")]
  children := [sliderElement]

/-- The declaration of the volume. -/
def volume : MethodProperty where
  title := "volume"
  method := "setVolume(int)"
  single := true
  override? := some
    { selector := "setVolume(int)"
      editor? := some { id := "slider", parameters := { values := .ofList [("max", "11")] } } }

open Rules StandardRules in
theorem apply_volumeElement (attributes : NameMap String) (text : String) :
    Rules.apply standardRules ⟨rootName, attributes, text, [volumeElement]⟩ =
      .ok { methodProperties := [volume] } := by
  have houter : childPath rootName "method-single-property" = pathOf [singleName] := rfl
  have heditor : childPath (pathOf [singleName]) "editor" = pathOf ["editor", singleName] := rfl
  have hparameter : childPath (pathOf ["editor", singleName]) "parameter" =
    pathOf ["parameter", "editor", singleName] := rfl
  have hinside : standardRules.filter (·.matches (pathOf ["parameter", "editor", singleName])) =
      [editorValue "*/editor/parameter"] :=
    filter_matches_unruled (by decide) (unruled_single_inside _ _)
  have hright := filter_matches_nested (.tail _ (.tail _ (.tail _ (.tail _ (.head _)))))
  rw [apply_component, documentOf]
  simp only [volumeElement, sliderElement, childCalls, calls_eq_foldr, houter, heditor,
    hparameter, filter_matches_single, hinside, hright]
  rfl

def mixer : ClassDecl := (ClassDecl.ofName "a.Mixer").withMethod "setVolume" ["int"] "void"

def mixerSetting (hierarchy : List ClassDecl) : Setting where
  hierarchy := hierarchy
  classPath := .root
  locator := ⟨fun _ ↦ none, fun _ _ ↦ false⟩
  strictMembers := false

/-- The description of the mixer, with a tag for the volume that waits. -/
def mixerDescription : Description :=
  (Description.ofClass (.pure "a.Mixer") mixer).configure
    { selector := "volume", tags := .ofList [("unit", "percent")] }

open StandardRules in
theorem apply_single_of_read_volume : ∃ root document, Xml.read volumeText = some root ∧
    Rules.apply standardRules root = .ok document ∧ document.methodProperties = [volume] ∧
    (∃ d', volume.apply (mixerSetting [mixer]) mixerDescription = (d', none) ∧
      d'.table.pending = [] ∧ d'.property? "setVolume(int)" = some
        { id := "setVolume(int)", title := "volume", kind := .singleMethod, typeName? := some "int",
          tags := .ofList [("unit", "percent")]
          editor? := some
            { id := "slider", parameters := { values := .ofList [("max", "11")] } } }) ∧
    volume.apply (mixerSetting []) mixerDescription = (mixerDescription, none) := by
  have hread : Xml.read volumeText = some { name := "component", children := [volumeElement] } :=
    Xml.read_of_readVerbatim? (by decide +kernel)
  have hparse := apply_volumeElement .empty ""
  obtain ⟨hdeclares, happly⟩ := apply_single_of_read hread hparse
  have hvolume : Declares volumeElement volume := (List.forall₂_cons.mp hdeclares).1
  have hmixer := happly volumeElement volume hvolume rfl (mixerSetting [mixer]) mixerDescription
  have hnone := happly volumeElement volume hvolume rfl (mixerSetting []) mixerDescription
  obtain ⟨d', hd', hproperty, -, hpending, -⟩ := hmixer.1 "a.Mixer" _ "int" rfl rfl
  refine ⟨_, _, hread, hparse, rfl, ⟨d', hd', hpending.trans ?_, hproperty.trans ?_⟩,
    hnone.2 rfl rfl⟩
  · decide +kernel
  · decide +kernel

end MethodProperty

end ComponentCatalog
