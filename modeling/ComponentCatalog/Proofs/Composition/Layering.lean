import Mathlib.Data.List.DropRight
import Mathlib.Data.List.Induction
import ComponentCatalog.Proofs.Composition.MemberStep
import ComponentCatalog.Proofs.Outcome

/-!
# What layers add up to

A description is composed by applying layers one after the other, each followed by
`Description.finishLayer`.  This file says what comes out, field by field and without the fold: for
layers in any order and number, of the component's own class, of its ancestors and of contexts.

* `ClassLayer.Effect` is what **one layer** does to each field that layers declare.
* `ClassLayer.Summary` is what **all of them** leave.  Single values are those of the last layer
  that has one (`lastSome`), lists are concatenated, morphing targets count from the last layer that
  refuses to inherit (`sinceLast`), and what is not inherited comes from the trailing run of layers
  of the component's own class (`ownRun`).
* `compose_summary` is the theorem: a composition that succeeds has its summary.

The induction is on the layers from the end, since each rule speaks of the last layers; so every
notion comes with an equation for one more layer at the end.
-/

set_option autoImplicit false

namespace ComponentCatalog

universe u v

/-! ## The ends of lists -/

section Ends

variable {α : Type u} {β : Type v}

/-- What the last member has that has something. -/
def lastSome (f : α → Option β) (l : List α) : Option β := l.reverse.findSome? f

/-- The members from the last one that satisfies `p`; all of them if none does. -/
def sinceLast (p : α → Bool) : List α → List α
  | [] => []
  | a :: rest => if rest.any p then sinceLast p rest else a :: rest

theorem lastSome_concat (f : α → Option β) (l : List α) (a : α) :
    lastSome f (l ++ [a]) = (f a).or (lastSome f l) := by
  rw [lastSome, List.reverse_append, List.findSome?_append, lastSome]
  cases h : f a <;> simp [h]

theorem lastSome_append (f : α → Option β) (l l' : List α) :
    lastSome f (l ++ l') = (lastSome f l').or (lastSome f l) := by
  rw [lastSome, List.reverse_append, List.findSome?_append]
  rfl

theorem lastSome_toList (f : α → Option β) (o : Option α) : lastSome f o.toList = o.bind f := by
  cases o with
  | none => rfl
  | some a => exact (lastSome_concat f [] a).trans (Option.or_none ..)

theorem lastSome_map {γ : Type u} (f : β → Option γ) (g : α → β) (l : List α) :
    lastSome f (l.map g) = lastSome (fun a ↦ f (g a)) l := by
  rw [lastSome, ← List.map_reverse, List.findSome?_map]
  rfl

/-- The last of what the members give is what the first one gives in reverse. -/
theorem lastSome_filterMap_reverse {γ : Type u} (f : β → Option γ) (g : α → Option β)
    (l : List α) : lastSome f (l.reverse.filterMap g) = l.findSome? fun a ↦ (g a).bind f := by
  rw [lastSome, List.filterMap_reverse, List.reverse_reverse, ← List.head?_filterMap,
    List.filterMap_filterMap, List.head?_filterMap]

theorem lastSome_eq_none_iff {f : α → Option β} {l : List α} :
    lastSome f l = none ↔ ∀ a ∈ l, f a = none := by
  rw [lastSome, List.findSome?_eq_none_iff]
  simp only [List.mem_reverse]

theorem lastSome_flatMap {γ : Type u} (f : β → Option γ) (g : α → List β) (l : List α) :
    lastSome f (l.flatMap g) = lastSome (fun a ↦ lastSome f (g a)) l := by
  induction l using List.reverseRecOn with
  | nil => rfl
  | append_singleton l a ih =>
    rw [lastSome_concat, ← ih]
    simp [lastSome, List.findSome?_append]

theorem sinceLast_concat (p : α → Bool) (l : List α) (a : α) :
    sinceLast p (l ++ [a]) = if p a then [a] else sinceLast p l ++ [a] := by
  induction l with
  | nil => simp [sinceLast]
  | cons b rest ih =>
    rw [List.cons_append, sinceLast, sinceLast, ih]
    by_cases ha : p a
    · simp [ha]
    · by_cases hrest : rest.any p <;> simp [ha, hrest]

end Ends

/-! ## Composing layers -/

/-- A layer with the class it was found for. -/
structure ClassLayer where
  document : LayerDocument
  layerClass : String

/-- Applies the layer, and drops what is not inherited from it. -/
def ClassLayer.addTo (s : Setting) (l : ClassLayer) (d : Description) :
    Except Failure Description := do
  let d ← (l.document.apply s l.layerClass).result d
  pure (d.finishLayer l.layerClass)

/-- Adds layers to a description, first to last. -/
def Description.compose (s : Setting) (layers : List ClassLayer) (d : Description) :
    Except Failure Description :=
  layers.foldlM (fun d l ↦ l.addTo s d) d

namespace ClassLayer

/-- The morphing targets that a layer adds: those that are on the class path. -/
def loadableTargets (s : Setting) (l : ClassLayer) : List MorphingTarget :=
  (l.document.morphTargets?.elim [] (·.targets)).filter fun t ↦ s.classPath.contains t.className

/-- Whether a layer refuses the morphing targets of those before it. -/
def refusesTargets (l : ClassLayer) : Bool := l.document.morphTargets?.any (·.noInherit)

/-- The longest run of layers of a class at the end. -/
def ownRun (className : String) (layers : List ClassLayer) : List ClassLayer :=
  layers.rtakeWhile fun l ↦ l.layerClass = className

theorem ownRun_concat (className : String) (layers : List ClassLayer) (l : ClassLayer) :
    ownRun className (layers ++ [l]) =
      if l.layerClass = className then ownRun className layers ++ [l] else [] := by
  rw [ownRun, List.rtakeWhile_concat, ownRun]
  simp only [decide_eq_true_eq]

/-- Nothing before the layer of another class is in the run. -/
theorem ownRun_append_cons {className : String} {ancestor : ClassLayer}
    (h : ancestor.layerClass ≠ className) (before after : List ClassLayer) :
    ownRun className (before ++ ancestor :: after) = ownRun className after := by
  induction after using List.reverseRecOn with
  | nil => rw [ownRun_concat, if_neg h]; rfl
  | append_singleton after l ih =>
    have hassoc : before ++ ancestor :: (after ++ [l]) = (before ++ ancestor :: after) ++ [l] := by
      simp
    rw [hassoc, ownRun_concat, ownRun_concat, ih]

/-- After layers of other classes, the run is all the layers of the class. -/
theorem ownRun_append {className : String} {before after : List ClassLayer}
    (hbefore : ∀ l ∈ before, l.layerClass ≠ className)
    (hafter : ∀ l ∈ after, l.layerClass = className) :
    ownRun className (before ++ after) = after := by
  induction after using List.reverseRecOn with
  | nil =>
    rw [List.append_nil]
    cases before using List.reverseRecOn with
    | nil => rfl
    | append_singleton before l =>
      rw [ownRun_concat, if_neg (hbefore l (List.mem_append_right _ List.mem_cons_self))]
  | append_singleton after l ih =>
    have hafter := List.forall_mem_append.mp hafter
    rw [← List.append_assoc, ownRun_concat, if_pos (hafter.2 l List.mem_cons_self), ih hafter.1]

/-! ## One layer -/

/-- What a layer makes of each field that layers declare. -/
structure Effect (s : Setting) (l : ClassLayer) (d e : Description) : Prop where
  key : e.key = d.key
  classDecl : e.classDecl = d.classDecl
  icon : e.icon? = d.icon?
  toolkit : e.toolkit? = (l.document.toolkit?.map Toolkit.mk).or d.toolkit?
  modelClass : e.modelClass? = l.document.modelClass?.or d.modelClass?
  order : e.order? = l.document.order?.or d.order?
  defaultMethodOrder :
    e.defaultMethodOrder? = l.document.methodOrders.default?.or d.defaultMethodOrder?
  parameters : e.parameters = d.parameters.overlay l.document.parameters
  exposingRules : e.exposingRules = d.exposingRules ++ l.document.exposingRules
  morphingTargets : e.morphingTargets =
    (if l.refusesTargets then [] else d.morphingTargets) ++ l.loadableTargets s
  creations : e.creations =
    if l.layerClass = d.componentClass then
      d.creations ++ l.document.creations.map (·.withIcon s d.componentClass)
    else []
  description : e.description? =
    if l.layerClass = d.componentClass then l.document.description?.or d.description? else none
  creationDefault : e.creationDefault? =
    if l.layerClass = d.componentClass then
      (l.document.creationDefault?.map (·.withIcon s d.componentClass)).or d.creationDefault?
    else none

/-- Of what is no member, the end of a layer touches only what is not inherited. -/
theorem withoutMembers_finishLayer {d b : Description} (h : d.withoutMembers = b)
    (layerClass : String) :
    (d.finishLayer layerClass).withoutMembers =
      { b with
        creations := if layerClass = b.componentClass then b.creations else []
        creationDefault? := if layerClass = b.componentClass then b.creationDefault? else none
        description? := if layerClass = b.componentClass then b.description? else none } := by
  subst h
  rw [Description.finishLayer]
  split
  · rename_i h
    simp [h, Description.withoutMembers, Description.componentClass]
  · rename_i h
    simp only [Description.withoutMembers, Description.componentClass] at h ⊢
    simp [h, Description.clearCreations]

theorem morphingTargets_extend (s : Setting) (l : ClassLayer) (earlier : List MorphingTarget) :
    (match l.document.morphTargets? with
      | some m => m.extend s earlier
      | none => earlier) =
      (if l.refusesTargets then [] else earlier) ++ l.loadableTargets s := by
  rw [refusesTargets, loadableTargets]
  cases l.document.morphTargets? with
  | none => simp
  | some m => rfl

/-- **One layer** that succeeds has its effect. -/
theorem addTo_effect {s : Setting} {l : ClassLayer} {d e : Description}
    (h : l.addTo s d = .ok e) : Effect s l d e := by
  obtain ⟨a, ha, h⟩ := bind_eq_ok_iff.mp h
  obtain rfl := Except.ok.inj h
  have happly := l.document.withoutMembers_of_apply s (Change.result_eq_ok_iff.mp ha)
  have hframe := withoutMembers_finishLayer happly l.layerClass
  exact {
    key := (congrArg Description.key hframe :)
    classDecl := (congrArg Description.classDecl hframe :)
    icon := (congrArg Description.icon? hframe :)
    toolkit := congrArg Description.toolkit? hframe
    modelClass := congrArg Description.modelClass? hframe
    order := congrArg Description.order? hframe
    defaultMethodOrder := congrArg Description.defaultMethodOrder? hframe
    parameters := congrArg Description.parameters hframe
    exposingRules := congrArg Description.exposingRules hframe
    morphingTargets := (congrArg Description.morphingTargets hframe).trans
      (morphingTargets_extend s l d.morphingTargets)
    creations := congrArg Description.creations hframe
    description := congrArg Description.description? hframe
    creationDefault := congrArg Description.creationDefault? hframe }

/-! ## All layers -/

/-- What the component's own layers leave of what is not inherited. -/
structure OwnSummary (s : Setting) (c : ClassDecl) (layers : List ClassLayer) (d : Description) :
    Prop where
  creations : d.creations =
    (ownRun c.name layers).flatMap fun l ↦ l.document.creations.map (·.withIcon s c.name)
  description : d.description? = lastSome (·.document.description?) (ownRun c.name layers)
  creationDefault : d.creationDefault? =
    (lastSome (·.document.creationDefault?) (ownRun c.name layers)).map (·.withIcon s c.name)

/-- What layers leave of a component of class `c`. -/
structure Summary (s : Setting) (c : ClassDecl) (layers : List ClassLayer) (d : Description) : Prop
    extends OwnSummary s c layers d where
  classDecl : d.classDecl = c
  toolkit : d.toolkit? = (lastSome (·.document.toolkit?) layers).map Toolkit.mk
  modelClass : d.modelClass? = lastSome (·.document.modelClass?) layers
  order : d.order? = lastSome (·.document.order?) layers
  defaultMethodOrder : d.defaultMethodOrder? = lastSome (·.document.methodOrders.default?) layers
  parameters : ∀ name,
    d.parameters.get? name = lastSome (·.document.parameters.get? name) layers
  exposingRules : d.exposingRules = layers.flatMap (·.document.exposingRules)
  morphingTargets :
    d.morphingTargets = (sinceLast refusesTargets layers).flatMap (·.loadableTargets s)

theorem summary_ofClass (s : Setting) (key : Key) (c : ClassDecl) :
    Summary s c [] (.ofClass key c) where
  creations := rfl
  description := rfl
  creationDefault := rfl
  classDecl := rfl
  toolkit := rfl
  modelClass := rfl
  order := rfl
  defaultMethodOrder := rfl
  parameters _ := rfl
  exposingRules := rfl
  morphingTargets := rfl

variable {s : Setting} {c : ClassDecl} {layers : List ClassLayer} {l : ClassLayer}
  {d e : Description}

theorem OwnSummary.concat (h : OwnSummary s c layers d) (hclass : d.classDecl = c)
    (heffect : Effect s l d e) : OwnSummary s c (layers ++ [l]) e := by
  have hname : d.componentClass = c.name := congrArg ClassDecl.name hclass
  by_cases hown : l.layerClass = c.name
  · have hrun : ownRun c.name (layers ++ [l]) = ownRun c.name layers ++ [l] := by
      rw [ownRun_concat, if_pos hown]
    constructor
    · rw [heffect.creations, hname, if_pos hown, h.creations, hrun]
      simp
    · rw [heffect.description, hname, if_pos hown, h.description, hrun, lastSome_concat]
    · rw [heffect.creationDefault, hname, if_pos hown, h.creationDefault, hrun, lastSome_concat,
        Option.map_or]
  · have hrun : ownRun c.name (layers ++ [l]) = [] := by rw [ownRun_concat, if_neg hown]
    constructor
    · rw [heffect.creations, hname, if_neg hown, hrun]
      rfl
    · rw [heffect.description, hname, if_neg hown, hrun]
      rfl
    · rw [heffect.creationDefault, hname, if_neg hown, hrun]
      rfl

theorem Summary.concat (h : Summary s c layers d) (heffect : Effect s l d e) :
    Summary s c (layers ++ [l]) e where
  toOwnSummary := h.toOwnSummary.concat h.classDecl heffect
  classDecl := heffect.classDecl.trans h.classDecl
  toolkit := by rw [heffect.toolkit, h.toolkit, lastSome_concat, Option.map_or]
  modelClass := by rw [heffect.modelClass, h.modelClass, lastSome_concat]
  order := by rw [heffect.order, h.order, lastSome_concat]
  defaultMethodOrder := by rw [heffect.defaultMethodOrder, h.defaultMethodOrder, lastSome_concat]
  parameters name := by
    rw [heffect.parameters, NameMap.get?_overlay, h.parameters, lastSome_concat]
  exposingRules := by rw [heffect.exposingRules, h.exposingRules]; simp
  morphingTargets := by
    rw [heffect.morphingTargets, h.morphingTargets, sinceLast_concat]
    split <;> simp

end ClassLayer

namespace Description

open ClassLayer

variable {s : Setting} {key : Key} {c : ClassDecl} {layers : List ClassLayer} {d : Description}

theorem compose_concat (s : Setting) (layers : List ClassLayer) (l : ClassLayer)
    (d : Description) : compose s (layers ++ [l]) d = compose s layers d >>= l.addTo s := by
  simp only [compose, List.foldlM_append, List.foldlM_cons, List.foldlM_nil, bind_pure]

theorem compose_cons_eq_ok_iff {l : ClassLayer} {e : Description} :
    compose s (l :: layers) d = .ok e ↔ ∃ m, l.addTo s d = .ok m ∧ compose s layers m = .ok e := by
  rw [compose, List.foldlM_cons, bind_eq_ok_iff]
  rfl

/-- A composition that succeeds has its summary. -/
theorem summary_of_compose (h : compose s layers (.ofClass key c) = .ok d) :
    Summary s c layers d := by
  induction layers using List.reverseRecOn generalizing d with
  | nil =>
    obtain rfl := Except.ok.inj h
    exact summary_ofClass s key c
  | append_singleton layers l ih =>
    rw [compose_concat] at h
    obtain ⟨m, hm, h⟩ := bind_eq_ok_iff.mp h
    exact (ih hm).concat (addTo_effect h)

def buttonClass : ClassDecl :=
  { name := "a.Button", superclass? := some "a.Widget",
    constructors := [{ parameterTypes := ["int"] }] }

def buttonSetting : Setting :=
  { hierarchy := [buttonClass, .ofName "a.Widget"]
    classPath := ClassPath.root.addAll [buttonClass, .ofName "a.Widget"]
    locator := ⟨fun _ ↦ none, fun _ _ ↦ false⟩
    strictMembers := true }

def widgetLayer : ClassLayer :=
  { layerClass := "a.Widget"
    document :=
      { toolkit? := some "swt", modelClass? := some "a.WidgetInfo", description? := some "A widget",
        creations := [{ id? := some "w" }],
        morphTargets? := some { targets := [{ className := "a.Widget" }] } } }

def buttonLayer : ClassLayer :=
  { layerClass := "a.Button"
    document :=
      { modelClass? := some "a.ButtonInfo", creations := [{ id? := some "check" }],
        morphTargets? := some
          { noInherit := true
            targets := [{ className := "a.Button" }, { className := "a.Gone" }] } } }

end Description

end ComponentCatalog
