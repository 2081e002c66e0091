import ComponentCatalog.Proofs.Composition.Layering
import ComponentCatalog.Proofs.Layer.Concatenation
import ComponentCatalog.Proofs.Layer.EditorParameters

/-!
# What layers say of method properties

A property made of a method has an element in a layer.  **The declarations of a layer document are
those of its elements**, in order, each with what the elements inside set for the property
(`forall₂_declares`).  That is read off the element (`PropertyOverride.nested`): of its categories,
editors, default values and getters the last one counts, its tags are taken together, and an editor
has all the parameters inside it.

The override of a declaration begins when something is set first, so it is looked at with nothing
set by default (`MethodProperty.override`).  Then reading one more child is setting one more thing
(`run_child`), and deeper inside only parameters of editors are read, for which there must be an
editor.  Elements of other names declare nothing: no rule but those for method properties does
(`standardRules_declareNone`), and these are called for no other element under the root.
-/

set_option autoImplicit false

namespace ComponentCatalog

open Xml

/-! ## What elements set -/

namespace Xml.Element

/-- What is read of the element if it has the name. -/
def as? {α : Type} (name : String) (read : Element → Option α) (e : Element) : Option α :=
  if e.name = name then read e else none

/-- The category that the element names. -/
def category? (e : Element) : Option PropertyCategory :=
  (e.attribute? "value").bind fun text ↦ (PropertyCategory.parse text).toOption

/-- The name and the value of the tag that the element is. -/
def tag? (e : Element) : Option (String × String) :=
  (e.attribute? "name").bind fun name ↦ (e.attribute? "value").map (name, ·)

end Xml.Element

/-- What children of an element set for the property that the selector names. -/
def PropertyOverride.nested (selector : String) (children : List Element) : PropertyOverride where
  selector
  category? := lastSome (Element.as? "category" (·.category?)) children
  editor? := lastSome (Element.as? "editor" (·.editor?)) children
  defaultValue? := lastSome (Element.as? "defaultValue" (·.attribute? "value")) children
  getter? := lastSome (Element.as? "getter" (·.attribute? "name")) children
  tags := .ofList (children.filterMap (Element.as? "tag" (·.tag?)))

/-- The override with what one more child sets. -/
def PropertyOverride.setBy (o : PropertyOverride) (child : Element) : PropertyOverride where
  selector := o.selector
  category? := (child.as? "category" (·.category?)).or o.category?
  editor? := (child.as? "editor" (·.editor?)).or o.editor?
  defaultValue? := (child.as? "defaultValue" (·.attribute? "value")).or o.defaultValue?
  getter? := (child.as? "getter" (·.attribute? "name")).or o.getter?
  noDefaultValue := o.noDefaultValue
  tags :=
    match child.as? "tag" (·.tag?) with
    | some (name, value) => o.tags.insert name value
    | none => o.tags

theorem PropertyOverride.nested_concat (selector : String) (children : List Element)
    (child : Element) :
    nested selector (children ++ [child]) = (nested selector children).setBy child := by
  simp only [nested, setBy, lastSome_concat, List.filterMap_append, NameMap.ofList,
    List.foldl_append, PropertyOverride.mk.injEq, true_and]
  cases h : child.as? "tag" (·.tag?) with
  | none => rw [List.filterMap_cons_none h]; rfl
  | some entry => rw [List.filterMap_cons_some h]; rfl

/-- Children set things one after the other. -/
theorem PropertyOverride.foldl_setBy (selector : String) (children : List Element) :
    children.foldl setBy { selector } = nested selector children := by
  induction children using List.reverseRecOn with
  | nil => rfl
  | append_singleton children child ih =>
    rw [List.foldl_append, ih, nested_concat]
    rfl

/-- What the declaration sets for the property; nothing as long as nothing was said. -/
def MethodProperty.override (p : MethodProperty) : PropertyOverride :=
  p.override?.getD { selector := p.method }

/-! ## Rules inside method properties -/

namespace StandardRules

/-- The name of elements for properties that are made of methods with one parameter. -/
def singleName : String := "method-single-property"

/-- The name of elements for properties that are made of any methods. -/
def anyName : String := "method-property"

/-- The rules for what is set for a property in the element for it, by the names of their
elements. -/
def nestedRules : List (String × Rule) :=
  let pattern := "component/method-single-property"
  [("category", propertyCategory pattern), ("defaultValue", propertyDefaultValue pattern),
    ("getter", propertyGetter pattern), ("tag", propertyTagOf pattern),
    ("editor", editor (pattern ++ "/editor"))]

/-- Whether a text begins with another one.  This goes by their bytes, which can be computed. -/
def begins (first text : String) : Bool :=
  first.toByteArray.data.toList.isPrefixOf text.toByteArray.data.toList

theorem begins_append (first rest : String) : begins first (first ++ rest) := by
  rw [begins, String.toByteArray_append, ByteArray.toList_data_append, List.isPrefixOf_iff_prefix]
  exact List.prefix_append _ _

/-- Of the elements for method properties, those for methods with one parameter have rules right
inside, and none further inside. -/
theorem patterns_inside : ∀ rule ∈ standardRules,
    (begins (pathOf [singleName]) rule.pattern →
      ∃ inner ∈ [] :: nestedRules.map ([·.1]), rule.pattern = pathOf (inner ++ [singleName])) ∧
    (begins (pathOf [anyName]) rule.pattern → rule.pattern = pathOf [anyName]) := by
  decide +kernel

theorem begins_of_standsAt {inner outer : List String} {rule : Rule}
    (h : rule.StandsAt (inner ++ outer)) : begins (pathOf outer) rule.pattern := by
  obtain ⟨rest, hrest⟩ := exists_pathOf_append inner outer
  rw [h.pattern_eq, hrest]
  exact begins_append _ _

theorem mem_of_standsAt_single {inner : List String} {rule : Rule} (hrule : rule ∈ standardRules)
    (h : rule.StandsAt (inner ++ [singleName])) : inner ∈ [] :: nestedRules.map ([·.1]) := by
  obtain ⟨inner', hinner', hpattern⟩ := (patterns_inside rule hrule).1 (begins_of_standsAt h)
  have hplain : ∀ inner ∈ [] :: nestedRules.map ([·.1]), ∀ n ∈ inner ++ [singleName], Plain n := by
    decide
  have heq := pathOf_injective h.plain (hplain inner' hinner') (h.pattern_eq.symm.trans hpattern)
  rwa [List.append_cancel_right heq]

theorem eq_nil_of_standsAt_any {inner : List String} {rule : Rule} (hrule : rule ∈ standardRules)
    (h : rule.StandsAt (inner ++ [anyName])) : inner = [] := by
  have hpattern := (patterns_inside rule hrule).2 (begins_of_standsAt h)
  have heq := pathOf_injective h.plain (by decide) (h.pattern_eq.symm.trans hpattern)
  exact List.append_cancel_right (heq.trans (List.nil_append _).symm)

/-- Right inside the element for a property of a method with one parameter, no rule stands at other
names than those of `nestedRules`; nor does any further inside. -/
theorem unruled_single {name : String} (hname : name ∉ nestedRules.map (·.1)) :
    Unruled [name, singleName] := by
  intro inner rule hrule hstands
  have hmem : inner ++ [name] ∈ [] :: nestedRules.map ([·.1]) :=
    mem_of_standsAt_single hrule (by rwa [List.append_assoc])
  obtain hnil | hmem := List.mem_cons.mp hmem
  · cases (List.append_eq_nil_iff.mp hnil).2
  · obtain ⟨entry, hentry, heq⟩ := List.mem_map.mp hmem
    obtain ⟨-, hname'⟩ := List.append_inj' ((List.nil_append _).trans heq) rfl
    obtain rfl := List.singleton_inj.mp hname'
    exact hname (List.mem_map_of_mem hentry)

theorem unruled_single_inside (name name' : String) : Unruled [name', name, singleName] := by
  intro inner rule hrule hstands
  have hmem : inner ++ [name', name] ∈ [] :: nestedRules.map ([·.1]) :=
    mem_of_standsAt_single hrule (by rwa [List.append_assoc])
  have hlength : ∀ l ∈ [] :: nestedRules.map ([·.1]), l.length ≤ 1 := by decide
  have hshort := hlength _ hmem
  simp at hshort

theorem unruled_any (name : String) : Unruled [name, anyName] := by
  intro inner rule hrule hstands
  have hnil : inner ++ [name] = [] :=
    eq_nil_of_standsAt_any hrule (by rwa [List.append_assoc])
  cases (List.append_eq_nil_iff.mp hnil).2

theorem filter_matches_single :
    standardRules.filter (·.matches (pathOf [singleName])) =
      [methodProperty "component/method-single-property" true] := by
  rw [filter_matches_eq (not_isEditorParameter (by decide) (by decide))]
  rfl

theorem filter_matches_any :
    standardRules.filter (·.matches (pathOf [anyName])) =
      [methodProperty "component/method-property" false] := by
  rw [filter_matches_eq (not_isEditorParameter (by decide) (by decide))]
  rfl

/-- Right inside the element for a property of a method with one parameter, the rules that match are
those of `nestedRules`, each at its name. -/
theorem filter_matches_nested {entry : String × Rule} (hentry : entry ∈ nestedRules) :
    standardRules.filter (·.matches (pathOf [entry.1, singleName])) = [entry.2] := by
  have hplain : ∀ entry ∈ nestedRules, ∀ n ∈ [entry.1, singleName], Plain n := by decide
  rw [filter_matches_eq (not_isEditorParameter (hplain entry hentry) (by decide))]
  simp only [nestedRules, List.mem_cons, List.not_mem_nil, or_false] at hentry
  obtain rfl | rfl | rfl | rfl | rfl := hentry
  all_goals rfl

end StandardRules

/-! ## Elements of a method property -/

/-- From the first state to the second, children set things for the method property under
construction, and nothing else changes. -/
def ReadsNested (children : List Element) (r r' : Reading) : Prop :=
  ∀ p rest, r.frames = .methodProperty p :: rest →
    ∃ override?, r' = { r with frames := .methodProperty { p with override? } :: rest } ∧
      MethodProperty.override { p with override? } =
        children.foldl PropertyOverride.setBy p.override

namespace ReadsNested

variable {children more : List Element} {r m r' : Reading}

theorem nil (r : Reading) : ReadsNested [] r r := by
  intro p rest hframes
  exact ⟨p.override?, by rw [← hframes], rfl⟩

theorem append (h : ReadsNested children r m) (h' : ReadsNested more m r') :
    ReadsNested (children ++ more) r r' := by
  intro p rest hframes
  obtain ⟨between, rfl, hbetween⟩ := h p rest hframes
  obtain ⟨override?, rfl, hoverride⟩ := h' _ rest rfl
  refine ⟨override?, rfl, ?_⟩
  rw [List.foldl_append, ← hbetween]
  exact hoverride

end ReadsNested

namespace StandardRules

open Rules

variable {e : Element} {r : Reading} {pattern : String}

theorem editOverride_nested {change : PropertyOverride → PropertyOverride}
    (h : ∀ o : PropertyOverride, o.setBy e = change o) :
    SucceedsIn (ReadsNested [e] r) (r.editOverride e change) := by
  intro r' hr' p rest hframes
  rw [Reading.editOverride, Reading.editTop, hframes] at hr'
  obtain rfl := Except.ok.inj hr'
  exact ⟨_, rfl, (h p.override).symm⟩

theorem propertyCategory_nested (hname : e.name = "category") :
    SucceedsIn (ReadsNested [e] r) ((propertyCategory pattern).onOpen e r) := by
  refine succeedsIn_bind_iff.mpr fun text htext ↦ succeedsIn_bind_iff.mpr fun category hread ↦
    editOverride_nested fun o ↦ ?_
  have hcategory : e.category? = some category := by
    rw [Element.category?, Element.required_eq_ok_iff.mp htext, Option.bind_some]
    rw [readCategory] at hread
    split at hread
    · rename_i h
      rw [h, Except.ok.inj hread]
      rfl
    · cases hread
  simp [PropertyOverride.setBy, Element.as?, hname, hcategory]

theorem propertyDefaultValue_nested (hname : e.name = "defaultValue") :
    SucceedsIn (ReadsNested [e] r) ((propertyDefaultValue pattern).onOpen e r) := by
  refine succeedsIn_bind_iff.mpr fun value hvalue ↦ editOverride_nested fun o ↦ ?_
  simp [PropertyOverride.setBy, Element.as?, hname, Element.required_eq_ok_iff.mp hvalue]

theorem propertyGetter_nested (hname : e.name = "getter") :
    SucceedsIn (ReadsNested [e] r) ((propertyGetter pattern).onOpen e r) := by
  refine succeedsIn_bind_iff.mpr fun getter hgetter ↦ editOverride_nested fun o ↦ ?_
  simp [PropertyOverride.setBy, Element.as?, hname, Element.required_eq_ok_iff.mp hgetter]

theorem propertyTagOf_nested (hname : e.name = "tag") :
    SucceedsIn (ReadsNested [e] r) ((propertyTagOf pattern).onOpen e r) := by
  refine succeedsIn_bind_iff.mpr fun name htag ↦ succeedsIn_bind_iff.mpr fun value hvalue ↦
    editOverride_nested fun o ↦ ?_
  simp [PropertyOverride.setBy, Element.as?, hname, Element.tag?,
    Element.required_eq_ok_iff.mp htag, Element.required_eq_ok_iff.mp hvalue]

/-- Inside an element that sets something, there is nothing to read. -/
theorem nested_enclose {rule : Rule} {inner : List Call} {ps : List Element}
    (hopen : SucceedsIn (ReadsNested [e] r) (rule.onOpen e r))
    (hclose : ∀ m, rule.onClose e m = .ok m)
    (hinner : ∀ m, SucceedsIn (ReadsParameters ps m) (run inner m)) :
    SucceedsIn (ReadsNested [e] r) (run (enclose e rule inner) r) := by
  rw [run_enclose]
  refine succeedsIn_bind_iff.mpr fun m hm ↦ succeedsIn_bind_iff.mpr fun m' hm' ↦ ?_
  rw [hclose, succeedsIn_ok]
  intro p rest hframes
  obtain ⟨override?, rfl, hoverride⟩ := hopen m hm p rest hframes
  rw [(hinner _ m' hm').eq_of_methodProperty rfl]
  exact ⟨override?, rfl, hoverride⟩

/-- An editor is set when its element closes, with the parameters inside it. -/
theorem editor_nested {inner : List Call} (hname : e.name = "editor")
    (hinner : ∀ m,
      SucceedsIn (ReadsParameters (Element.childParameters e.name e.children) m) (run inner m)) :
    SucceedsIn (ReadsNested [e] r) (run (enclose e (editor pattern) inner) r) := by
  rw [run_enclose]
  refine succeedsIn_bind_iff.mpr fun m hm ↦ succeedsIn_bind_iff.mpr fun m' hm' ↦ ?_
  intro r' hr' p rest hframes
  obtain ⟨id, hid, hm⟩ := bind_eq_ok_iff.mp hm
  obtain rfl := Except.ok.inj hm
  rw [(hinner _ m' hm').eq_of_editor rfl] at hr'
  obtain ⟨⟨frame, s⟩, hpop, hr'⟩ := bind_eq_ok_iff.mp hr'
  obtain ⟨rfl, rfl⟩ := Prod.mk.inj (Except.ok.inj hpop)
  dsimp only at hr'
  rw [setEditor_eq, Reading.editTop] at hr'
  simp only [Reading.push, hframes, Frame.withEditor?] at hr'
  obtain rfl := Except.ok.inj hr'
  refine ⟨_, rfl, ?_⟩
  simp [PropertyOverride.setBy, Element.as?, hname, Element.editor?, MethodProperty.override,
    Element.required_eq_ok_iff.mp hid]

/-- An element that is none of those for what is set for a property sets nothing. -/
theorem setBy_of_not_mem (hname : e.name ∉ nestedRules.map (·.1)) (o : PropertyOverride) :
    o.setBy e = o := by
  simp only [nestedRules, List.map_cons, List.map_nil, List.mem_cons, List.not_mem_nil, or_false,
    not_or] at hname
  simp [PropertyOverride.setBy, Element.as?, hname]

/-- **Reading one more child is setting one more thing.** -/
theorem run_child (hplain : e.Plain) :
    SucceedsIn (ReadsNested [e] r)
      (run (calls standardRules (pathOf [e.name, singleName]) e) r) := by
  obtain ⟨hname, hchildren⟩ := Element.plain_iff.mp hplain
  have hnames : ∀ n ∈ [e.name, singleName], Plain n :=
    List.forall_mem_cons.mpr ⟨hname, by decide⟩
  have hinner : ∀ m, SucceedsIn (ReadsParameters (Element.childParameters e.name e.children) m)
      (run (childCalls standardRules (pathOf [e.name, singleName]) e.children) m) :=
    reads_childCalls e.children hnames hchildren fun name ↦ unruled_single_inside e.name name
  by_cases hnested : e.name ∈ nestedRules.map (·.1)
  · obtain ⟨⟨name, rule⟩, hentry, heq⟩ := List.mem_map.mp hnested
    dsimp only at heq
    have hfilter := filter_matches_nested hentry
    rw [heq] at hfilter
    rw [calls_eq_foldr, hfilter]
    simp only [nestedRules, List.mem_cons, Prod.mk.injEq, List.not_mem_nil, or_false] at hentry
    obtain ⟨rfl, rfl⟩ | ⟨rfl, rfl⟩ | ⟨rfl, rfl⟩ | ⟨rfl, rfl⟩ | ⟨rfl, rfl⟩ := hentry
    · exact nested_enclose (propertyCategory_nested heq.symm) (fun _ ↦ rfl) hinner
    · exact nested_enclose (propertyDefaultValue_nested heq.symm) (fun _ ↦ rfl) hinner
    · exact nested_enclose (propertyGetter_nested heq.symm) (fun _ ↦ rfl) hinner
    · exact nested_enclose (propertyTagOf_nested heq.symm) (fun _ ↦ rfl) hinner
    · exact editor_nested heq.symm hinner
  · -- No rule is for this child, so nothing but editor parameters is read in it, and a method
    -- property can have none.
    have hreads := reads_calls e hnames hchildren (unruled_single hnested) r
    intro r' hr' p rest hframes
    rw [(hreads r' hr').eq_of_methodProperty hframes]
    refine ⟨p.override?, by rw [← hframes], ?_⟩
    exact (setBy_of_not_mem hnested p.override).symm

/-- What is read inside the element for a property of a method with one parameter is set for the
property. -/
theorem run_children {children : List Element} (hplain : ∀ child ∈ children, child.Plain) :
    SucceedsIn (ReadsNested children r)
      (run (childCalls standardRules (pathOf [singleName]) children) r) := by
  induction children generalizing r with
  | nil =>
    rw [childCalls, run_nil, succeedsIn_ok]
    exact .nil r
  | cons child rest ih =>
    obtain ⟨hchild, hrest⟩ := List.forall_mem_cons.mp hplain
    rw [childCalls, run_append]
    refine succeedsIn_bind_iff.mpr fun m hm ↦ ?_
    exact (ih hrest).mono fun r' hr' ↦ (run_child hchild m hm).append hr'

end StandardRules

/-! ## Rules that declare nothing -/

/-- If there is a next state, its document declares the method properties. -/
abbrev LeavesDeclared (ps : List MethodProperty) (x : Except Failure Reading) : Prop :=
  SucceedsIn (·.document.methodProperties = ps) x

/-- No handler of the rule declares a method property. -/
structure Rule.DeclaresNone (rule : Rule) : Prop where
  onOpen : ∀ e r, LeavesDeclared r.document.methodProperties (rule.onOpen e r)
  onClose : ∀ e r, LeavesDeclared r.document.methodProperties (rule.onClose e r)

theorem Rule.declaresNone_iff {rule : Rule} :
    rule.DeclaresNone ↔ ∀ e r, LeavesDeclared r.document.methodProperties (rule.onOpen e r) ∧
      LeavesDeclared r.document.methodProperties (rule.onClose e r) :=
  ⟨fun h e r ↦ ⟨h.onOpen e r, h.onClose e r⟩, fun h ↦ ⟨fun e r ↦ (h e r).1, fun e r ↦ (h e r).2⟩⟩

namespace Reading

variable {r : Reading} {e : Element} {ps : List MethodProperty}

@[simp] theorem editTop_leavesDeclared (h : r.document.methodProperties = ps)
    (change : Frame → Option Frame) : LeavesDeclared ps (r.editTop e change) := by
  rw [editTop]
  split
  · exact succeedsIn_error _
  · split
    · exact succeedsIn_ok.mpr h
    · exact succeedsIn_error _

@[simp] theorem editOverride_leavesDeclared (h : r.document.methodProperties = ps)
    (change : PropertyOverride → PropertyOverride) :
    LeavesDeclared ps (r.editOverride e change) :=
  editTop_leavesDeclared h _

end Reading

namespace StandardRules

theorem headRules_declareNone : ∀ rule ∈ headRules, rule.DeclaresNone := by
  simp [headRules, toolkit, model, order, description, componentParameter, exposing,
    Rule.declaresNone_iff, Reading.edit, succeedsIn_of_forall]

theorem creationRules_declareNone : ∀ rule ∈ creationRules, rule.DeclaresNone := by
  simp +contextual [creationRules, creationRulesFor, creation, creationDescription, creationSource,
    creationInvocation, creationParameter, creationTag, creationTypeParameter, editCreation,
    Rule.declaresNone_iff, Frame.forall_iff, Reading.edit, Reading.push, Reading.pop_eq_ok_iff]

theorem morphingRules_declareNone : ∀ rule ∈ morphingRules, rule.DeclaresNone := by
  simp +contextual [morphingRules, morphTargets, noInherit, morphTarget, editMorphTargets,
    Rule.declaresNone_iff, Frame.forall_iff, Reading.edit, Reading.push, Reading.pop_eq_ok_iff]

theorem configurableProperty_declaresNone : configurableProperty.DeclaresNone where
  onOpen e r := by
    refine succeedsIn_bind_iff.mpr fun id _ ↦ succeedsIn_bind_iff.mpr fun title _ ↦ ?_
    split <;> simp [Reading.push, succeedsIn_of_forall]
  onClose e r := by
    simp +contextual [configurableProperty, Frame.forall_iff, Reading.edit, Reading.pop_eq_ok_iff]

theorem propertyRules_declareNone : ∀ rule ∈ propertyRules,
    rule.pattern ≠ pathOf [singleName] → rule.pattern ≠ pathOf [anyName] → rule.DeclaresNone := by
  have hsingle : pathOf [singleName] = "component/method-single-property" := rfl
  have hany : pathOf [anyName] = "component/method-property" := rfl
  simp +contextual [propertyRules, beanProperties, fieldProperties, noDefaultValue, propertyTag,
    category, methodProperty, property, overrideRules, propertyCategory, propertyDefaultValue,
    propertyGetter, propertyTagOf, configurableProperty_declaresNone.onOpen,
    configurableProperty_declaresNone.onClose, Rule.declaresNone_iff, Frame.forall_iff, hsingle,
    hany, Reading.edit, Reading.push, Reading.pop_eq_ok_iff, succeedsIn_of_forall]

theorem method_declaresNone : method.DeclaresNone where
  onOpen e r := by
    rw [method]
    dsimp only
    split <;> simp [Reading.push, succeedsIn_of_forall]
  onClose e r := by
    simp +contextual [method, Frame.forall_iff, Reading.edit, Reading.pop_eq_ok_iff]

theorem memberRules_declareNone : ∀ rule ∈ memberRules, rule.DeclaresNone := by
  simp +contextual [memberRules, constructor, methodTag, methodOperation, parameter, addParameter,
    parameterTag, method_declaresNone.onOpen, method_declaresNone.onClose, Rule.declaresNone_iff,
    Frame.forall_iff, Reading.edit, Reading.push, Reading.pop_eq_ok_iff, succeedsIn_of_forall]

theorem methodOfGroup_declaresNone : methodOfGroup.DeclaresNone where
  onOpen e r := by
    rw [methodOfGroup]
    dsimp only
    split <;> simp [Reading.edit, addOrder]
  onClose e r := by simp [methodOfGroup]

theorem orderRules_declareNone : ∀ rule ∈ orderRules, rule.DeclaresNone := by
  simp +contextual [orderRules, defaultOrder, methodOrder, methodOrderGroup,
    methodOfGroup_declaresNone.onOpen, methodOfGroup_declaresNone.onClose, Rule.declaresNone_iff,
    Frame.forall_iff, Reading.edit, Reading.push, Reading.pop_eq_ok_iff, addOrder,
    succeedsIn_of_forall]

theorem editorRules_declareNone : ∀ rule ∈ editorRules, rule.DeclaresNone := by
  simp +contextual [editorRules, editor, editorValue, editorItem, editEditorParameters,
    setEditor_eq, Rule.declaresNone_iff, Frame.forall_iff, Reading.push, Reading.pop_eq_ok_iff,
    succeedsIn_of_forall]

/-- Only the rules for method properties declare any. -/
theorem standardRules_declareNone : ∀ rule ∈ standardRules,
    rule.pattern ≠ pathOf [singleName] → rule.pattern ≠ pathOf [anyName] → rule.DeclaresNone := by
  intro rule h hsingle hany
  simp only [standardRules, List.mem_append] at h
  obtain (((((h | h) | h) | h) | h) | h) | h := h
  · exact headRules_declareNone rule h
  · exact creationRules_declareNone rule h
  · exact morphingRules_declareNone rule h
  · exact propertyRules_declareNone rule h hsingle hany
  · exact memberRules_declareNone rule h
  · exact orderRules_declareNone rule h
  · exact editorRules_declareNone rule h

/-! ## Elements of a component -/

open Rules

variable {e : Element} {pattern : String}

/-- The declaration is that of the element: it has the title and the method that the element names
and, for a method with one parameter, what the elements inside set. -/
structure Declares (e : Element) (p : MethodProperty) : Prop where
  title : e.attribute? "title" = some p.title
  method : e.attribute? "method" = some p.method
  single : p.single ↔ e.name = singleName
  override : p.override = .nested p.method (if p.single then e.children else [])

/-- The element is for a property that is made of a method. -/
def IsMethodProperty (e : Element) : Prop := e.name = singleName ∨ e.name = anyName

instance : DecidablePred IsMethodProperty := fun e ↦
  inferInstanceAs (Decidable (e.name = singleName ∨ e.name = anyName))

/-- Around what is read inside, the rule for method properties puts the declaration together. -/
theorem methodProperty_enclose {single : Bool} {inner : List Call} {r r' : Reading}
    (hr : run (enclose e (methodProperty pattern single) inner) r = .ok r') : ∃ title method m,
      e.attribute? "title" = some title ∧ e.attribute? "method" = some method ∧
      run inner (r.push (.methodProperty { title, method, single })) = .ok m ∧
      ∀ p rest, m.frames = .methodProperty p :: rest →
        r' =
          { document :=
              { m.document with methodProperties := m.document.methodProperties ++ [p] }
            frames := rest } := by
  rw [run_enclose] at hr
  obtain ⟨opened, hopen, hr⟩ := bind_eq_ok_iff.mp hr
  obtain ⟨m, hinner, hclose⟩ := bind_eq_ok_iff.mp hr
  obtain ⟨title, htitle, hopen⟩ := bind_eq_ok_iff.mp hopen
  obtain ⟨method, hmethod, hopen⟩ := bind_eq_ok_iff.mp hopen
  obtain rfl := Except.ok.inj hopen
  refine ⟨title, method, m, Element.required_eq_ok_iff.mp htitle,
    Element.required_eq_ok_iff.mp hmethod, hinner, fun p rest hframes ↦ ?_⟩
  obtain ⟨⟨frame, s⟩, hpop, hclose⟩ := bind_eq_ok_iff.mp hclose
  obtain ⟨rest', hframes', rfl⟩ := Reading.pop_eq_ok_iff.mp hpop
  obtain ⟨rfl, rfl⟩ := List.cons.inj (hframes.symm.trans hframes')
  exact (Except.ok.inj hclose).symm

/-- What the element for a method property adds to the document is its declaration. -/
theorem declares_of_documentOf {d : LayerDocument} (hplain : e.Plain) (he : IsMethodProperty e)
    (h : documentOf [e] = .ok d) : ∃ p, d.methodProperties = [p] ∧ Declares e p := by
  obtain ⟨hname, hchildren⟩ := Element.plain_iff.mp hplain
  obtain ⟨r, hr, rfl⟩ := documentOf_eq_ok_iff.mp h
  rw [childCalls, childCalls, List.append_nil, calls_eq_foldr] at hr
  have hpath : childPath rootName e.name = pathOf [e.name] := rfl
  obtain hsingle | hany := he
  · rw [hpath, hsingle, filter_matches_single] at hr
    obtain ⟨title, method, m, htitle, hmethod, hinner, hclosed⟩ := methodProperty_enclose hr
    obtain ⟨override?, rfl, hoverride⟩ := run_children hchildren m hinner _ _ rfl
    rw [hclosed _ _ rfl]
    refine ⟨_, rfl, htitle, hmethod, iff_of_true rfl hsingle, ?_⟩
    exact hoverride.trans (PropertyOverride.foldl_setBy method e.children)
  · rw [hpath, hany, filter_matches_any] at hr
    obtain ⟨title, method, m, htitle, hmethod, hinner, hclosed⟩ := methodProperty_enclose hr
    have hreads := reads_childCalls e.children (by decide) hchildren unruled_any _ m hinner
    rw [hreads.eq_of_methodProperty rfl] at hclosed
    rw [hclosed _ _ rfl]
    refine ⟨_, rfl, htitle, hmethod, iff_of_false Bool.false_ne_true ?_, rfl⟩
    rw [hany]
    decide

/-- Other elements declare no method property. -/
theorem methodProperties_of_documentOf {d : LayerDocument} (hplain : e.Plain)
    (he : ¬IsMethodProperty e) (h : documentOf [e] = .ok d) : d.methodProperties = [] := by
  obtain ⟨r, hr, rfl⟩ := documentOf_eq_ok_iff.mp h
  rw [childCalls, childCalls, List.append_nil] at hr
  -- Elements inside cannot be told apart by name, but their rules stand at other places.
  refine foldlM_induction (P := fun r ↦ r.document.methodProperties = [])
    (fun c hc b b' hb hb' ↦ ?_) rfl hr
  have hsingle : c.rule.pattern ≠ pathOf [singleName] :=
    pattern_ne_of_mem_calls (by decide) hplain (fun h ↦ he (.inl h)) hc
  have hany : c.rule.pattern ≠ pathOf [anyName] :=
    pattern_ne_of_mem_calls (by decide) hplain (fun h ↦ he (.inr h)) hc
  have hnone := standardRules_declareNone c.rule (rule_mem_of_mem_calls hc) hsingle hany
  rw [Call.run] at hb'
  split at hb'
  · exact (hnone.onOpen _ _ _ hb').trans hb
  · exact (hnone.onClose _ _ _ hb').trans hb

theorem forall₂_declares_of_documentOf {children : List Element} {d : LayerDocument}
    (hplain : ∀ child ∈ children, child.Plain) (h : documentOf children = .ok d) :
    List.Forall₂ Declares (children.filter IsMethodProperty) d.methodProperties := by
  induction children generalizing d with
  | nil =>
    obtain rfl := Except.ok.inj h
    exact .nil
  | cons child rest ih =>
    obtain ⟨hchild, hrest⟩ := List.forall_mem_cons.mp hplain
    rw [← List.singleton_append, documentOf_append] at h
    obtain ⟨first, hfirst, h⟩ := bind_eq_ok_iff.mp h
    obtain ⟨others, hothers, h⟩ := bind_eq_ok_iff.mp h
    obtain rfl := Except.ok.inj h
    show List.Forall₂ Declares _ (first.methodProperties ++ others.methodProperties)
    by_cases he : IsMethodProperty child
    · obtain ⟨p, hp, hdeclares⟩ := declares_of_documentOf hchild he hfirst
      rw [List.filter_cons, if_pos (decide_eq_true he), hp]
      exact .cons hdeclares (ih hrest hothers)
    · rw [List.filter_cons, if_neg (by rwa [decide_eq_true_iff]),
        methodProperties_of_documentOf hchild he hfirst]
      exact ih hrest hothers

end StandardRules

open Rules StandardRules in
/-- **The method properties of a layer are those of its elements**, in order, each with what its own
elements set. -/
theorem forall₂_declares {root : Element} {document : LayerDocument} (hplain : root.Plain)
    (h : apply standardRules root = .ok document) :
    List.Forall₂ Declares (root.children.filter IsMethodProperty) document.methodProperties := by
  have hname : root.name = rootName := by
    by_contra hother
    rw [apply, if_neg hother] at h
    cases h
  have hchildren := (Element.plain_iff.mp hplain).2
  obtain ⟨name, attributes, text, children⟩ := root
  obtain rfl : name = rootName := hname
  rw [apply_component] at h
  exact forall₂_declares_of_documentOf hchildren h

end ComponentCatalog
