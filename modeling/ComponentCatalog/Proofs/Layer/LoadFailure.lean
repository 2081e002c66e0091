import ComponentCatalog.Layer.Reading
import ComponentCatalog.Layer.StandardRules
import ComponentCatalog.Proofs.Outcome

/-!
# Failures of reading

**A layer that cannot be read is a load error**, whatever is wrong with it.  This holds for any
rules whose handlers fail in no other way (`Rules.readLayer_failsToLoad`), and those of the standard
rules do not (`standardRules_onlyFailToLoad`): all that they do is to ask for attributes and to
change the parts under construction.
-/

set_option autoImplicit false

namespace ComponentCatalog

open Xml

universe u

/-- The failure is one of loading a layer. -/
def Failure.IsLoad (f : Failure) : Prop := f.kind = .loadError

/-- If the outcome is a failure, it is one of loading a layer. -/
abbrev FailsToLoad {α : Type u} (x : Except Failure α) : Prop := FailsIn Failure.IsLoad x

/-- The handlers of a rule fail in loading only. -/
structure Rule.OnlyFailsToLoad (rule : Rule) : Prop where
  onOpen : ∀ e r, FailsToLoad (rule.onOpen e r)
  onClose : ∀ e r, FailsToLoad (rule.onClose e r)

/-- Both handlers at once, which is the form that `simp` can check rule by rule. -/
theorem Rule.onlyFailsToLoad_iff {rule : Rule} :
    rule.OnlyFailsToLoad ↔
      ∀ e r, FailsToLoad (rule.onOpen e r) ∧ FailsToLoad (rule.onClose e r) :=
  ⟨fun h e r ↦ ⟨h.onOpen e r, h.onClose e r⟩, fun h ↦ ⟨fun e r ↦ (h e r).1, fun e r ↦ (h e r).2⟩⟩

/-! ## Any rules -/

/-- A call is of one handler or the other. -/
theorem Call.run_failsToLoad {c : Call} (h : c.rule.OnlyFailsToLoad) (r : Reading) :
    FailsToLoad (c.run r) := by
  rw [Call.run]
  split
  · exact h.onOpen _ _
  · exact h.onClose _ _

namespace Rules

variable {rules : List Rule}

mutual

/-- Only handlers of the rules are called. -/
theorem rule_mem_of_mem_calls {path : String} {c : Call} :
    ∀ {e : Element}, c ∈ calls rules path e → c.rule ∈ rules
  | ⟨name, attributes, text, children⟩, h => by
    rw [calls] at h
    simp only [List.mem_append, List.mem_map, List.mem_reverse, List.mem_filter] at h
    obtain (⟨rule, ⟨hrule, -⟩, rfl⟩ | h) | ⟨rule, ⟨hrule, -⟩, rfl⟩ := h
    · exact hrule
    · exact rule_mem_of_mem_childCalls h
    · exact hrule

theorem rule_mem_of_mem_childCalls {path : String} {c : Call} :
    ∀ {children : List Element}, c ∈ childCalls rules path children → c.rule ∈ rules
  | [], h => by
    rw [childCalls] at h
    cases h
  | child :: rest, h => by
    rw [childCalls] at h
    rcases List.mem_append.mp h with h | h
    · exact rule_mem_of_mem_calls h
    · exact rule_mem_of_mem_childCalls h

end

/-- Besides the calls, two things can go wrong: the root has another name, or a frame is left open
at the end. -/
theorem apply_failsToLoad (h : ∀ rule ∈ rules, rule.OnlyFailsToLoad) (root : Element) :
    FailsToLoad (apply rules root) := by
  rw [apply]
  split
  · refine FailsIn.bind ?_ fun r _ ↦ ?_
    · exact FailsIn.foldlM (fun c hc ↦ Call.run_failsToLoad (h c.rule (rule_mem_of_mem_calls hc))) _
    · rw [Reading.finish]
      split
      · exact failsIn_ok _
      · exact failsIn_error.mpr rfl
  · exact failsIn_error.mpr rfl

/-- Reading a layer fails in loading only, as long as the handlers do. -/
theorem readLayer_failsToLoad (h : ∀ rule ∈ rules, rule.OnlyFailsToLoad) (resource : Resource) :
    FailsToLoad (readLayer rules resource) := by
  rw [readLayer]
  split
  · exact failsIn_error.mpr rfl
  · split
    · exact failsIn_error.mpr rfl
    · exact (apply_failsToLoad h _).mapError fun _ hf ↦ hf

end Rules

/-! ## What handlers are made of -/

@[simp] theorem Failure.isLoad_load (message : String) : (load message).IsLoad := rfl

@[simp] theorem Failure.isLoad_misplaced (e : Element) (found? : Option String) :
    (misplaced e found?).IsLoad := rfl

namespace Xml.Element

variable (e : Element)

@[simp] theorem required_failsToLoad (name : String) : FailsToLoad (e.required name) := by
  rw [required]
  split
  · exact failsIn_ok _
  · exact failsIn_error.mpr rfl

@[simp] theorem flag_failsToLoad (name : String) : FailsToLoad (e.flag name) := by
  rw [flag]
  split
  · exact failsIn_ok _
  · split
    · exact failsIn_ok _
    · split
      · exact failsIn_ok _
      · exact failsIn_error.mpr rfl

/-- Words are always read, so only a missing attribute is a failure. -/
@[simp] theorem namesAttribute_failsToLoad : FailsToLoad e.namesAttribute :=
  (e.required_failsToLoad "names").bind fun _ _ ↦ failsIn_pure _

/-- The attribute is missing, or its word is not one for an order. -/
@[simp] theorem orderAttribute_failsToLoad : FailsToLoad e.orderAttribute := by
  refine (e.required_failsToLoad "order").bind fun text _ ↦ ?_
  split
  · exact failsIn_ok _
  · exact failsIn_error.mpr rfl

end Xml.Element

@[simp] theorem readCategory_failsToLoad (text : String) : FailsToLoad (readCategory text) := by
  rw [readCategory]
  split
  · exact failsIn_ok _
  · exact failsIn_error.mpr rfl

namespace Reading

variable (r : Reading) (e : Element)

/-- All that can be wrong is that there is no frame to take. -/
@[simp] theorem pop_failsToLoad : FailsToLoad (r.pop e) := by
  rw [pop]
  split
  · exact failsIn_error.mpr rfl
  · exact failsIn_ok _

/-- There may be no frame to change, or one of a kind that is not changed in this way. -/
@[simp] theorem editTop_failsToLoad (change : Frame → Option Frame) :
    FailsToLoad (r.editTop e change) := by
  rw [editTop]
  split
  · exact failsIn_error.mpr rfl
  · split
    · exact failsIn_ok _
    · exact failsIn_error.mpr rfl

@[simp] theorem editOverride_failsToLoad (change : PropertyOverride → PropertyOverride) :
    FailsToLoad (r.editOverride e change) :=
  r.editTop_failsToLoad e _

end Reading

/-- Frames by kind. -/
theorem Frame.forall_iff {p : Frame → Prop} :
    (∀ frame, p frame) ↔
      (∀ c isDefault, p (.creation c isDefault)) ∧ (∀ t, p (.morphTargets t)) ∧
      (∀ n, p (.constructor n)) ∧ (∀ n, p (.method n)) ∧ (∀ q, p (.parameter q)) ∧
      (∀ o, p (.property o)) ∧ (∀ q, p (.methodProperty q)) ∧
      (∀ q, p (.configurableProperty q)) ∧ (∀ e, p (.editor e)) ∧
      ∀ o, p (.methodOrderGroup o) := by
  refine ⟨fun h ↦ by simp [h], ?_⟩
  rintro ⟨_, _, _, _, _, _, _, _, _, _⟩ (_ | _ | _ | _ | _ | _ | _ | _ | _ | _) <;> simp [*]

namespace StandardRules

@[simp] theorem parameterCount_failsToLoad (e : Element) (r : Reading) :
    FailsToLoad (parameterCount e r) := by
  rw [parameterCount]
  split <;> simp

/-- Editors stand in parameters and overrides, and are misplaced everywhere else. -/
@[simp] theorem setEditor_failsToLoad (e : Element) (r : Reading) (editor : Editor) :
    FailsToLoad (setEditor e r editor) := by
  rw [setEditor]
  split <;> simp

theorem headRules_onlyFailToLoad : ∀ rule ∈ headRules, rule.OnlyFailsToLoad := by
  simp [headRules, toolkit, model, order, description, componentParameter, exposing,
    Rule.onlyFailsToLoad_iff]

theorem creationRules_onlyFailToLoad : ∀ rule ∈ creationRules, rule.OnlyFailsToLoad := by
  simp [creationRules, creationRulesFor, creation, creationDescription, creationSource,
    creationInvocation, creationParameter, creationTag, creationTypeParameter, editCreation,
    Rule.onlyFailsToLoad_iff, Frame.forall_iff]

theorem morphingRules_onlyFailToLoad : ∀ rule ∈ morphingRules, rule.OnlyFailsToLoad := by
  simp [morphingRules, morphTargets, noInherit, morphTarget, editMorphTargets,
    Rule.onlyFailsToLoad_iff, Frame.forall_iff]

/-- Whether there is a category decides what is read next, so this rule takes more than `simp`. -/
theorem configurableProperty_onlyFailsToLoad : configurableProperty.OnlyFailsToLoad where
  onOpen e r := by
    refine (e.required_failsToLoad "id").bind fun id _ ↦ ?_
    refine (e.required_failsToLoad "title").bind fun title _ ↦ ?_
    split <;> simp
  onClose e r := by simp [configurableProperty, Frame.forall_iff]

theorem propertyRules_onlyFailToLoad : ∀ rule ∈ propertyRules, rule.OnlyFailsToLoad := by
  simp [propertyRules, beanProperties, fieldProperties, noDefaultValue, propertyTag, category,
    methodProperty, property, overrideRules, propertyCategory, propertyDefaultValue,
    propertyGetter, propertyTagOf, configurableProperty_onlyFailsToLoad.onOpen,
    configurableProperty_onlyFailsToLoad.onClose, Rule.onlyFailsToLoad_iff, Frame.forall_iff]

/-- The same with the order of a method. -/
theorem method_onlyFailsToLoad : method.OnlyFailsToLoad where
  onOpen e r := by
    rw [method]
    dsimp only
    split <;> simp
  onClose e r := by simp [method, Frame.forall_iff]

theorem memberRules_onlyFailToLoad : ∀ rule ∈ memberRules, rule.OnlyFailsToLoad := by
  simp [memberRules, constructor, methodTag, methodOperation, parameter, addParameter,
    parameterTag, method_onlyFailsToLoad.onOpen, method_onlyFailsToLoad.onClose,
    Rule.onlyFailsToLoad_iff, Frame.forall_iff]

/-- A method of a group asks the frame for the order of the group. -/
theorem methodOfGroup_onlyFailsToLoad : methodOfGroup.OnlyFailsToLoad where
  onOpen e r := by
    rw [methodOfGroup]
    dsimp only
    split <;> simp
  onClose e r := failsIn_ok r

theorem orderRules_onlyFailToLoad : ∀ rule ∈ orderRules, rule.OnlyFailsToLoad := by
  simp [orderRules, defaultOrder, methodOrder, methodOrderGroup,
    methodOfGroup_onlyFailsToLoad.onOpen, methodOfGroup_onlyFailsToLoad.onClose,
    Rule.onlyFailsToLoad_iff, Frame.forall_iff]

theorem editorRules_onlyFailToLoad : ∀ rule ∈ editorRules, rule.OnlyFailsToLoad := by
  simp [editorRules, editor, editorValue, editorItem, editEditorParameters,
    Rule.onlyFailsToLoad_iff, Frame.forall_iff]

end StandardRules

/-- No handler of the standard rules fails but in loading. -/
theorem standardRules_onlyFailToLoad : ∀ rule ∈ standardRules, rule.OnlyFailsToLoad := by
  intro rule h
  simp only [standardRules, List.mem_append] at h
  obtain (((((h | h) | h) | h) | h) | h) | h := h
  · exact StandardRules.headRules_onlyFailToLoad rule h
  · exact StandardRules.creationRules_onlyFailToLoad rule h
  · exact StandardRules.morphingRules_onlyFailToLoad rule h
  · exact StandardRules.propertyRules_onlyFailToLoad rule h
  · exact StandardRules.memberRules_onlyFailToLoad rule h
  · exact StandardRules.orderRules_onlyFailToLoad rule h
  · exact StandardRules.editorRules_onlyFailToLoad rule h

end ComponentCatalog
