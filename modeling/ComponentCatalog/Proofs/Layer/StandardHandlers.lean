import ComponentCatalog.Layer.StandardRules
import ComponentCatalog.Proofs.Layer.Handler

/-!
# The handlers of the standard rules

For each standard rule, the kind of frame that its elements stand in and the kind that it makes
itself.  A rule that adds to the document is for elements in any frame.
-/

set_option autoImplicit false

namespace ComponentCatalog

open Xml

variable {e : Element} {top? : Option String}

namespace StandardRules

/-! ## The head of a component -/

/-- The toolkit is named by an identifier, the later of two counting. -/
theorem toolkit_obeys : toolkit.Obeys top? none where
  onOpen e := .read (e.required_failsForAttribute "id") fun _ ↦ .place (.edit fun _ _ ↦ rfl)
  onClose _ := .nothing

theorem model_obeys : model.Obeys top? none where
  onOpen e := .read (e.required_failsForAttribute "class") fun _ ↦ .place (.edit fun _ _ ↦ rfl)
  onClose _ := .nothing

/-- An order is the text of its element, so there is no attribute to ask for. -/
theorem order_obeys : order.Obeys top? none where
  onOpen _ := .place (.edit fun _ _ ↦ rfl)
  onClose _ := .nothing

theorem description_obeys : description.Obeys top? none where
  onOpen _ := .place (.edit fun _ _ ↦ rfl)
  onClose _ := .nothing

/-- Parameters overlay each other by name, in whichever document they stand. -/
theorem componentParameter_obeys : componentParameter.Obeys top? none where
  onOpen e := by
    refine .read (e.required_failsForAttribute "name") fun name ↦ .place (.edit fun d d' ↦ ?_)
    simp only [LayerDocument.merge, NameMap.overlay_insert]
  onClose _ := .nothing

/-- Exposing rules are collected, those for inclusion and exclusion in one list. -/
theorem exposing_obeys (pattern : String) (includes : Bool) :
    (exposing pattern includes).Obeys top? none where
  onOpen _ := .place (.edit fun _ _ ↦ by simp only [LayerDocument.merge, List.append_assoc])
  onClose _ := .nothing

/-! ## Creations -/

/-- A creation is complete when its element closes: the default one takes the place of the one
before, the others are collected. -/
theorem creation_obeys (pattern : String) (isDefault : Bool) :
    (creation pattern isDefault).Obeys top? (some "creation") where
  onOpen _ := .push rfl
  onClose e := by
    refine .pop (fun frame hkind ↦ ?_) fun frame r hkind ↦ ?_
    · cases frame with
      | creation c isDefault =>
        cases isDefault with
        | true => exact .edit fun _ _ ↦ rfl
        | false => exact .edit fun _ _ ↦ by simp only [LayerDocument.merge, List.append_assoc]
      | _ => simp [Frame.name] at hkind
    · cases frame with
      | creation => exact absurd rfl hkind
      | _ => rfl

/-- What stands in the element of a creation changes that creation, and the frame stays one of a
creation. -/
theorem editCreation_placing (change : Creation → Creation) :
    Placing e (some "creation") fun r ↦ editCreation e r change := by
  refine .editTop (fun frame changed h ↦ ?_) ⟨_, rfl, fun frame hkind ↦ ?_⟩
  · cases frame with
    | creation =>
      obtain rfl := Option.some.inj h
      rfl
    | _ => cases h
  · cases frame with
    | creation => rfl
    | _ => simp [Frame.name] at hkind

theorem creationDescription_obeys (pattern : String) :
    (creationDescription pattern).Obeys (some "creation") none where
  onOpen _ := .place (editCreation_placing _)
  onClose _ := .nothing

theorem creationSource_obeys (pattern : String) :
    (creationSource pattern).Obeys (some "creation") none where
  onOpen _ := .place (editCreation_placing _)
  onClose _ := .nothing

/-- An invocation names a method by its signature; the text of the element is the arguments. -/
theorem creationInvocation_obeys (pattern : String) :
    (creationInvocation pattern).Obeys (some "creation") none where
  onOpen e :=
    .read (e.required_failsForAttribute "signature") fun _ ↦ .place (editCreation_placing _)
  onClose _ := .nothing

theorem creationParameter_obeys (pattern : String) :
    (creationParameter pattern).Obeys (some "creation") none where
  onOpen e := .read (e.required_failsForAttribute "name") fun _ ↦ .place (editCreation_placing _)
  onClose _ := .nothing

/-- A tag has a name and a value, which are asked for in this order. -/
theorem creationTag_obeys (pattern : String) :
    (creationTag pattern).Obeys (some "creation") none where
  onOpen e :=
    .read (e.required_failsForAttribute "name") fun _ ↦
      .read (e.required_failsForAttribute "value") fun _ ↦ .place (editCreation_placing _)
  onClose _ := .nothing

theorem creationTypeParameter_obeys (pattern : String) :
    (creationTypeParameter pattern).Obeys (some "creation") none where
  onOpen e :=
    .read (e.required_failsForAttribute "name") fun _ ↦
      .read (e.required_failsForAttribute "type") fun _ ↦ .place (editCreation_placing _)
  onClose _ := .nothing

/-! ## Morphing targets -/

/-- Morphing targets are set as a whole, so that those of a later element replace earlier ones. -/
theorem morphTargets_obeys : morphTargets.Obeys top? (some "morph targets") where
  onOpen _ := .push rfl
  onClose e := by
    refine .pop (fun frame hkind ↦ ?_) fun frame r hkind ↦ ?_
    · cases frame with
      | morphTargets => exact .edit fun _ _ ↦ rfl
      | _ => simp [Frame.name] at hkind
    · cases frame with
      | morphTargets => exact absurd rfl hkind
      | _ => rfl

/-- What stands in the element of morphing targets changes those, and the frame stays one of
morphing targets. -/
theorem editMorphTargets_placing (change : MorphTargets → MorphTargets) :
    Placing e (some "morph targets") fun r ↦ editMorphTargets e r change := by
  refine .editTop (fun frame changed h ↦ ?_) ⟨_, rfl, fun frame hkind ↦ ?_⟩
  · cases frame with
    | morphTargets =>
      obtain rfl := Option.some.inj h
      rfl
    | _ => cases h
  · cases frame with
    | morphTargets => rfl
    | _ => simp [Frame.name] at hkind

theorem noInherit_obeys : noInherit.Obeys (some "morph targets") none where
  onOpen _ := .place (editMorphTargets_placing _)
  onClose _ := .nothing

theorem morphTarget_obeys : morphTarget.Obeys (some "morph targets") none where
  onOpen e :=
    .read (e.required_failsForAttribute "class") fun _ ↦ .place (editMorphTargets_placing _)
  onClose _ := .nothing

/-! ## Properties -/

/-- To ask for the properties of the class twice is to ask once. -/
theorem beanProperties_obeys : beanProperties.Obeys top? none where
  onOpen _ := .place (.edit fun _ _ ↦ by simp only [LayerDocument.merge, Bool.or_true])
  onClose _ := .nothing

theorem fieldProperties_obeys : fieldProperties.Obeys top? none where
  onOpen _ := .place (.edit fun _ _ ↦ by simp only [LayerDocument.merge, Bool.or_true])
  onClose _ := .nothing

/-- The words of the attribute are all properties without a default value. -/
theorem noDefaultValue_obeys : noDefaultValue.Obeys top? none where
  onOpen e :=
    .read e.namesAttribute_failsForAttribute fun _ ↦
      .place (.edit fun _ _ ↦ by simp only [LayerDocument.merge, List.append_assoc])
  onClose _ := .nothing

/-- One tag for all properties that are named. -/
theorem propertyTag_obeys : propertyTag.Obeys top? none where
  onOpen e :=
    .read e.namesAttribute_failsForAttribute fun _ ↦
      .read (e.required_failsForAttribute "name") fun _ ↦
        .read (e.required_failsForAttribute "value") fun _ ↦
          .place (.edit fun _ _ ↦ by simp only [LayerDocument.merge, List.append_assoc])
  onClose _ := .nothing

theorem category_obeys (pattern : String) (c : PropertyCategory) :
    (category pattern c).Obeys top? none where
  onOpen e :=
    .read e.namesAttribute_failsForAttribute fun _ ↦
      .place (.edit fun _ _ ↦ by simp only [LayerDocument.merge, List.append_assoc])
  onClose _ := .nothing

/-- A property made of a method is added when its element closes, with what was set in it. -/
theorem methodProperty_obeys (pattern : String) (single : Bool) :
    (methodProperty pattern single).Obeys top? (some "method property") where
  onOpen e :=
    .read (e.required_failsForAttribute "title") fun _ ↦
      .read (e.required_failsForAttribute "method") fun _ ↦ .push rfl
  onClose e := by
    refine .pop (fun frame hkind ↦ ?_) fun frame r hkind ↦ ?_
    · cases frame with
      | methodProperty =>
        exact .edit fun _ _ ↦ by simp only [LayerDocument.merge, List.append_assoc]
      | _ => simp [Frame.name] at hkind
    · cases frame with
      | methodProperty => exact absurd rfl hkind
      | _ => rfl

/-- What is set for one property is collected when its element closes. -/
theorem property_obeys : property.Obeys top? (some "property") where
  onOpen e := .read (e.required_failsForAttribute "id") fun _ ↦ .push rfl
  onClose e := by
    refine .pop (fun frame hkind ↦ ?_) fun frame r hkind ↦ ?_
    · cases frame with
      | property => exact .edit fun _ _ ↦ by simp only [LayerDocument.merge, List.append_assoc]
      | _ => simp [Frame.name] at hkind
    · cases frame with
      | property => exact absurd rfl hkind
      | _ => rfl

/-- The kinds of frames that have an override under construction. -/
def overridden : List String := ["property", "method property"]

/-- Both kinds of frames have an override, and a property made of a method gets an empty one as soon
as something is set for it. -/
theorem editOverride_placing {kind : String} (hkind : kind ∈ overridden)
    (change : PropertyOverride → PropertyOverride) :
    Placing e (some kind) fun r ↦ r.editOverride e change := by
  refine .editTop (fun frame changed h ↦ ?_) ⟨kind, rfl, fun frame hname ↦ ?_⟩
  · cases frame with
    | property | methodProperty =>
      obtain rfl := Option.some.inj h
      rfl
    | _ => cases h
  · subst hname
    cases frame with
    | property | methodProperty => rfl
    | _ => simp [Frame.name, overridden] at hkind

variable {kind : String}

/-- The value is there or not, and then it is the word for a category or not. -/
theorem propertyCategory_obeys (pattern : String) (hkind : kind ∈ overridden) :
    (propertyCategory pattern).Obeys (some kind) none where
  onOpen e :=
    .read (e.required_failsForAttribute "value") fun text ↦
      .read (readCategory_failsForAttribute text) fun _ ↦ .place (editOverride_placing hkind _)
  onClose _ := .nothing

theorem propertyDefaultValue_obeys (pattern : String) (hkind : kind ∈ overridden) :
    (propertyDefaultValue pattern).Obeys (some kind) none where
  onOpen e :=
    .read (e.required_failsForAttribute "value") fun _ ↦ .place (editOverride_placing hkind _)
  onClose _ := .nothing

theorem propertyGetter_obeys (pattern : String) (hkind : kind ∈ overridden) :
    (propertyGetter pattern).Obeys (some kind) none where
  onOpen e :=
    .read (e.required_failsForAttribute "name") fun _ ↦ .place (editOverride_placing hkind _)
  onClose _ := .nothing

theorem propertyTagOf_obeys (pattern : String) (hkind : kind ∈ overridden) :
    (propertyTagOf pattern).Obeys (some kind) none where
  onOpen e :=
    .read (e.required_failsForAttribute "name") fun _ ↦
      .read (e.required_failsForAttribute "value") fun _ ↦ .place (editOverride_placing hkind _)
  onClose _ := .nothing

/-- The category of a configurable property may be missing, but not be unknown. -/
theorem configurableProperty_obeys :
    configurableProperty.Obeys top? (some "configurable property") where
  onOpen e := by
    refine .read (e.required_failsForAttribute "id") fun id ↦ ?_
    refine .read (e.required_failsForAttribute "title") fun title ↦ ?_
    cases e.attribute? "category" with
    | some text => exact .read (readCategory_failsForAttribute text) fun _ ↦ .push rfl
    | none => exact .push rfl
  onClose e := by
    refine .pop (fun frame hkind ↦ ?_) fun frame r hkind ↦ ?_
    · cases frame with
      | configurableProperty =>
        exact .edit fun _ _ ↦ by simp only [LayerDocument.merge, List.append_assoc]
      | _ => simp [Frame.name] at hkind
    · cases frame with
      | configurableProperty => exact absurd rfl hkind
      | _ => rfl

/-! ## Constructors and methods -/

/-- A constructor opens without a failure: its signature is known only from the parameters in it. -/
theorem constructor_obeys : constructor.Obeys top? (some "constructor") where
  onOpen _ := .push rfl
  onClose e := by
    refine .pop (fun frame hkind ↦ ?_) fun frame r hkind ↦ ?_
    · cases frame with
      | constructor => exact .edit fun _ _ ↦ by simp only [LayerDocument.merge, List.append_assoc]
      | _ => simp [Frame.name] at hkind
    · cases frame with
      | constructor => exact absurd rfl hkind
      | _ => rfl

/-- The order of a method is read first, if it is given, and then the name. -/
theorem method_obeys : method.Obeys top? (some "method") where
  onOpen e := by
    dsimp only [method]
    cases e.attribute? "order" with
    | some _ =>
      refine .read (failsIn_map_iff.mpr e.orderAttribute_failsForAttribute) fun order ↦ ?_
      exact .read (e.required_failsForAttribute "name") fun _ ↦ .push rfl
    | none =>
      refine .read (failsIn_pure none) fun order? ↦ ?_
      exact .read (e.required_failsForAttribute "name") fun _ ↦ .push rfl
  onClose e := by
    refine .pop (fun frame hkind ↦ ?_) fun frame r hkind ↦ ?_
    · cases frame with
      | method => exact .edit fun _ _ ↦ by simp only [LayerDocument.merge, List.append_assoc]
      | _ => simp [Frame.name] at hkind
    · cases frame with
      | method => exact absurd rfl hkind
      | _ => rfl

/-- A tag is given to the method that it stands in; tags of parameters are for another rule. -/
theorem methodTag_obeys : methodTag.Obeys (some "method") none where
  onOpen e := by
    refine .read (e.required_failsForAttribute "name") fun name ↦ ?_
    refine .read (e.required_failsForAttribute "value") fun value ↦ .place ?_
    refine .editTop (fun frame changed h ↦ ?_) ⟨_, rfl, fun frame hkind ↦ ?_⟩
    · cases frame with
      | method =>
        obtain rfl := Option.some.inj h
        rfl
      | _ => cases h
    · cases frame with
      | method => rfl
      | _ => simp [Frame.name] at hkind
  onClose _ := .nothing

/-- Inclusions and exclusions are collected in one list, since their order counts. -/
theorem methodOperation_obeys (pattern : String) (includes : Bool) :
    (methodOperation pattern includes).Obeys top? none where
  onOpen e :=
    .read (e.required_failsForAttribute "signature") fun _ ↦
      .place (.edit fun _ _ ↦ by simp only [LayerDocument.merge, List.append_assoc])
  onClose _ := .nothing

/-- The kinds of frames that have parameters. -/
def invocable : List String := ["constructor", "method"]

/-- The number of parameters of a constructor or method. -/
def Frame.parameterCount? : Frame → Option Nat
  | .constructor n => some n.parameters.length
  | .method n => some n.parameters.length
  | _ => none

/-- To count parameters is a question to the innermost frame. -/
theorem parameterCount_eq (e : Element) (r : Reading) :
    parameterCount e r = r.askTop e Frame.parameterCount? := by
  rw [parameterCount, Reading.askTop, Reading.top?]
  cases r.frames with
  | nil => rfl
  | cons frame rest => cases frame <;> rfl

/-- A parameter gets its index when its element opens, and joins its constructor or method when it
closes.  So the frame is asked twice: when the element opens it has to have parameters, and it still
has when the parameter is put in. -/
theorem parameter_obeys (pattern : String) (hkind : kind ∈ invocable) :
    (parameter pattern).Obeys (some kind) (some "parameter") where
  onOpen e := by
    dsimp only [parameter]
    simp only [parameterCount_eq]
    refine .ask ⟨kind, rfl, fun frame hname ↦ ?_⟩ fun index ↦ ?_
    · subst hname
      cases frame with
      | constructor | method => rfl
      | _ => simp [Frame.name, invocable] at hkind
    · exact .read (e.required_failsForAttribute "type") fun _ ↦
        .read (e.flag_failsForAttribute "parent") fun _ ↦
          .read (e.flag_failsForAttribute "child") fun _ ↦
            .read (e.flag_failsForAttribute "parent2") fun _ ↦
              .read (e.flag_failsForAttribute "child2") fun _ ↦ .push rfl
  onClose e := by
    refine .pop (fun frame hframe ↦ ?_) fun frame r hframe ↦ ?_
    · cases frame with
      | parameter =>
        refine .editTop (fun frame changed h ↦ ?_) ⟨kind, rfl, fun frame hname ↦ ?_⟩
        · cases frame with
          | constructor | method =>
            obtain rfl := Option.some.inj h
            rfl
          | _ => cases h
        · subst hname
          cases frame with
          | constructor | method => rfl
          | _ => simp [Frame.name, invocable] at hkind
      | _ => simp [Frame.name] at hframe
    · cases frame with
      | parameter => exact absurd rfl hframe
      | _ => rfl

theorem parameterTag_obeys (pattern : String) :
    (parameterTag pattern).Obeys (some "parameter") none where
  onOpen e := by
    refine .read (e.required_failsForAttribute "name") fun name ↦ ?_
    refine .read (e.required_failsForAttribute "value") fun value ↦ .place ?_
    refine .editTop (fun frame changed h ↦ ?_) ⟨_, rfl, fun frame hkind ↦ ?_⟩
    · cases frame with
      | parameter =>
        obtain rfl := Option.some.inj h
        rfl
      | _ => cases h
    · cases frame with
      | parameter => rfl
      | _ => simp [Frame.name] at hkind
  onClose _ := .nothing

/-! ## The order of methods -/

theorem defaultOrder_obeys : defaultOrder.Obeys top? none where
  onOpen e := .read e.orderAttribute_failsForAttribute fun _ ↦ .place (.edit fun _ _ ↦ rfl)
  onClose _ := .nothing

/-- Orders are collected, those of single methods and those of groups alike. -/
theorem addOrder_additive (signature : String) (order : MethodOrder) :
    LayerDocument.Additive (addOrder signature order) := by
  intro d d'
  simp only [addOrder, LayerDocument.merge, MethodOrders.merge, List.append_assoc]

theorem methodOrder_obeys : methodOrder.Obeys top? none where
  onOpen e :=
    .read (e.required_failsForAttribute "signature") fun _ ↦
      .read e.orderAttribute_failsForAttribute fun _ ↦ .place (.edit (addOrder_additive _ _))
  onClose _ := .nothing

/-- A group adds nothing by itself; its order is in the frame for the methods in it. -/
theorem methodOrderGroup_obeys : methodOrderGroup.Obeys top? (some "method order group") where
  onOpen e := .read e.orderAttribute_failsForAttribute fun _ ↦ .push rfl
  onClose e := by
    refine .pop (fun frame hkind ↦ ?_) fun frame r hkind ↦ ?_
    · cases frame with
      | methodOrderGroup => exact .keep
      | _ => simp [Frame.name] at hkind
    · cases frame with
      | methodOrderGroup => exact absurd rfl hkind
      | _ => rfl

/-- The order of a group of methods. -/
def Frame.groupOrder? : Frame → Option MethodOrder
  | .methodOrderGroup order => some order
  | _ => none

/-- The methods of a group take their order from the frame. -/
theorem methodOfGroup_onOpen (e : Element) (r : Reading) :
    methodOfGroup.onOpen e r =
      r.askTop e Frame.groupOrder? >>= fun order ↦ .ok (r.edit (addOrder e.trimmedText order)) := by
  rw [methodOfGroup, Reading.askTop]
  dsimp only [Reading.top?]
  cases r.frames with
  | nil => rfl
  | cons frame rest => cases frame <;> rfl

theorem methodOfGroup_obeys : methodOfGroup.Obeys (some "method order group") none where
  onOpen e := by
    rw [funext (methodOfGroup_onOpen e)]
    refine .ask ⟨_, rfl, fun frame hkind ↦ ?_⟩ fun order ↦ .place (.edit (addOrder_additive _ _))
    cases frame with
    | methodOrderGroup => rfl
    | _ => simp [Frame.name] at hkind
  onClose _ := .nothing

/-! ## Editors -/

/-- The kinds of frames that have an editor. -/
def edited : List String := ["parameter", "property", "method property"]

/-- Gives a frame an editor. -/
def Frame.withEditor? (editor : Editor) : Frame → Option Frame
  | .parameter p => some (.parameter { p with editor? := some editor })
  | .property o => some (.property { o with editor? := some editor })
  | .methodProperty p =>
    let o := p.override?.getD { selector := p.method }
    some (.methodProperty { p with override? := some { o with editor? := some editor } })
  | _ => none

/-- The three places that an editor can be set are one change of the innermost frame. -/
theorem setEditor_eq (e : Element) (r : Reading) (editor : Editor) :
    setEditor e r editor = r.editTop e (Frame.withEditor? editor) := by
  rw [setEditor, Reading.top?]
  cases hframes : r.frames with
  | nil =>
    dsimp only [Reading.editOverride, Reading.editTop]
    simp only [hframes, List.head?_nil]
  | cons frame rest =>
    cases frame <;> simp [Reading.editOverride, Reading.editTop, hframes, Frame.withEditor?]

/-- An editor is set when its element closes, in the frame around it, which is still of its kind. -/
theorem editor_obeys (pattern : String) (hkind : kind ∈ edited) :
    (editor pattern).Obeys (some kind) (some "editor") where
  onOpen e := .read (e.required_failsForAttribute "id") fun _ ↦ .push rfl
  onClose e := by
    refine .pop (fun frame hframe ↦ ?_) fun frame r hframe ↦ ?_
    · cases frame with
      | editor ed =>
        dsimp only
        simp only [setEditor_eq]
        refine .editTop (fun frame changed h ↦ ?_) ⟨kind, rfl, fun frame hname ↦ ?_⟩
        · cases frame with
          | parameter | property | methodProperty =>
            obtain rfl := Option.some.inj h
            rfl
          | _ => cases h
        · subst hname
          cases frame with
          | parameter | property | methodProperty => rfl
          | _ => simp [Frame.name, edited] at hkind
      | _ => simp [Frame.name] at hframe
    · cases frame with
      | editor => exact absurd rfl hframe
      | _ => rfl

/-- The kinds of frames that have editor parameters. -/
def parameterized : List String := ["editor", "configurable property"]

/-- The parameters of an editor stand in its own element, those of a configurable property in the
element of the property. -/
theorem editEditorParameters_placing (hkind : kind ∈ parameterized)
    (change : EditorParameters → EditorParameters) :
    Placing e (some kind) fun r ↦ editEditorParameters e r change := by
  refine .editTop (fun frame changed h ↦ ?_) ⟨kind, rfl, fun frame hname ↦ ?_⟩
  · cases frame with
    | editor | configurableProperty =>
      obtain rfl := Option.some.inj h
      rfl
    | _ => cases h
  · subst hname
    cases frame with
    | editor | configurableProperty => rfl
    | _ => simp [Frame.name, parameterized] at hkind

theorem editorValue_obeys (pattern : String) (hkind : kind ∈ parameterized) :
    (editorValue pattern).Obeys (some kind) none where
  onOpen e :=
    .read (e.required_failsForAttribute "name") fun _ ↦
      .place (editEditorParameters_placing hkind _)
  onClose _ := .nothing

theorem editorItem_obeys (pattern : String) (hkind : kind ∈ parameterized) :
    (editorItem pattern).Obeys (some kind) none where
  onOpen e :=
    .read (e.required_failsForAttribute "name") fun _ ↦
      .place (editEditorParameters_placing hkind _)
  onClose _ := .nothing

end StandardRules

end ComponentCatalog
