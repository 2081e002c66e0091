import ComponentCatalog.Proofs.Composition.Layering

/-!
# The parts of a description

What a layer says of properties, constructors and methods is applied by one change for each part of
the description.  A change **works on** a part (`Change.WorksOn`) if it commutes with every update
that leaves the part alone.  This one notion gives two facts:

* the change keeps the other parts (`Change.WorksOn.get_fst`), for to put back what is there is an
  update, and one that does nothing;
* the change does not see the other parts, so a layer makes the same of a description under any key
  (`Description.compose_put_key`).

So a layer that is silent on a part keeps it (`LayerDocument.table_of_apply` and so on): its change
for this part does nothing, and the other changes work on other parts.
-/

set_option autoImplicit false

namespace ComponentCatalog

universe u

/-! ## Parts -/

namespace Description

/-- The parts of a description that are dealt with on their own here. -/
inductive Part where
  | key
  | icon
  | table
  | constructors
  | methods
  | defaultMethodOrder

namespace Part

/-- What a part holds. -/
abbrev Value : Part → Type
  | key => Key
  | icon => Option Icon
  | table => PropertyTable
  | constructors => List Constructor
  | methods => List Method
  | defaultMethodOrder => Option MethodOrder

def get (d : Description) : (p : Part) → p.Value
  | key => d.key
  | icon => d.icon?
  | table => d.table
  | constructors => d.constructors
  | methods => d.methods
  | defaultMethodOrder => d.defaultMethodOrder?

/-- The description with another value of the part. -/
def put (d : Description) : (p : Part) → p.Value → Description
  | .key, k => { d with key := k }
  | .icon, icon? => { d with icon? := icon? }
  | .table, t => { d with table := t }
  | .constructors, cs => { d with constructors := cs }
  | .methods, ms => { d with methods := ms }
  | .defaultMethodOrder, order? => { d with defaultMethodOrder? := order? }

theorem get_put (d : Description) (p : Part) (a : p.Value) : p.get (p.put d a) = a := by
  cases p <;> rfl

theorem put_get (d : Description) (p : Part) : p.put d (p.get d) = d := by
  cases p <;> rfl

/-- The update leaves the part alone, and the class, which every change can see. -/
structure Untouched (p : Part) (update : Description → Description) : Prop where
  componentClass : ∀ d, (update d).componentClass = d.componentClass
  get : ∀ d, p.get (update d) = p.get d
  put : ∀ d a, update (p.put d a) = p.put (update d) a

/-- To put something into another part leaves a part alone. -/
theorem untouched_put {p q : Part} (h : p ≠ q) (b : q.Value) : p.Untouched (q.put · b) := by
  constructor
  · intro d
    cases q <;> rfl
  · intro d
    cases p <;> cases q <;> first | rfl | exact absurd rfl h
  · intro d a
    cases p <;> cases q <;> first | rfl | exact absurd rfl h

theorem Untouched.modify {p : Part} {update : Description → Description} (h : p.Untouched update)
    (f : p.Value → p.Value) (d : Description) :
    p.put (update d) (f (p.get (update d))) = update (p.put d (f (p.get d))) := by
  rw [h.put, h.get]

end Part

end Description

open Description (Part)

/-! ## Changes that work on a part -/

namespace Change

/-- It makes no difference whether the update comes before the change or after it. -/
def Ignores (update : Description → Description) (c : Change) : Prop :=
  ∀ d, c (update d) = (update (c d).1, (c d).2)

/-- The change touches the part and sees nothing else but the class. -/
def WorksOn (p : Part) (c : Change) : Prop :=
  ∀ update, p.Untouched update → c.Ignores update

variable {update : Description → Description} {first second c : Change}

theorem ignores_of {f : Description → Description} (h : ∀ d, f (update d) = update (f d)) :
    (of f).Ignores update :=
  fun d ↦ Prod.ext (h d) rfl

theorem Ignores.andThen (h : first.Ignores update) (h' : second.Ignores update) :
    (first.andThen second).Ignores update := by
  intro d
  rw [Change.andThen, Change.andThen, h d]
  rcases first d with ⟨e, _ | f⟩
  · exact h' e
  · rfl

theorem Ignores.each {β : Type u} {change : β → Change} (h : ∀ b, (change b).Ignores update)
    (l : List β) : (each l change).Ignores update := by
  induction l with
  | nil => exact ignores_of fun _ ↦ rfl
  | cons b l ih => exact (h b).andThen ih

theorem ignores_put_of_worksOn {p q : Part} (h : c.WorksOn p) (hpq : p ≠ q) (b : q.Value) :
    c.Ignores (q.put · b) :=
  h _ (Part.untouched_put hpq b)

/-- The change leaves the part as it is. -/
def Keeps (p : Part) (c : Change) : Prop := ∀ d, p.get (c d).1 = p.get d

/-- To put back what a part holds does nothing, so what ignores that keeps the part. -/
theorem keeps_of_ignores {p : Part} (h : ∀ a, c.Ignores (p.put · a)) : c.Keeps p := by
  intro d
  have hput : c (p.put d (p.get d)) = (p.put (c d).1 (p.get d), (c d).2) := h (p.get d) d
  rw [Part.put_get] at hput
  have hkept : (c d).1 = p.put (c d).1 (p.get d) := congrArg Prod.fst hput
  rw [hkept, Part.get_put]

theorem WorksOn.keeps {p q : Part} (h : c.WorksOn p) (hpq : p ≠ q) : c.Keeps q :=
  keeps_of_ignores (ignores_put_of_worksOn h hpq)

theorem Keeps.andThen {p : Part} (h : first.Keeps p) (h' : second.Keeps p) :
    (first.andThen second).Keeps p := by
  intro d
  have hd := h d
  rw [Change.andThen]
  rcases hfirst : first d with ⟨e, _ | f⟩ <;> rw [hfirst] at hd
  · exact (h' e).trans hd
  · exact hd

end Change

/-! ## The changes of a layer -/

variable (s : Setting) {update : Description → Description}

theorem Setting.unknownMember_ignores (h : ∀ d, (update d).componentClass = d.componentClass)
    (message : String) : (s.unknownMember message).Ignores update := by
  intro d
  rw [Setting.unknownMember, Setting.unknownMember, h]
  split
  · rfl
  · rfl

/-! ### Properties -/

namespace Description

variable (h : Part.table.Untouched update)

include h

theorem addProperty_update (p : Property) (d : Description) :
    (update d).addProperty p = update (d.addProperty p) :=
  h.modify (·.add p) d

theorem configure_update (o : PropertyOverride) (d : Description) :
    (update d).configure o = update (d.configure o) :=
  h.modify (·.configure o) d

theorem addNewProperties_update (ps : List Property) (d : Description) :
    (update d).addNewProperties ps = update (d.addNewProperties ps) := by
  refine List.foldl_hom update fun d p ↦ ?_
  have hfind : (update d).property? p.id = d.property? p.id := congrArg (·.find? p.id) (h.get d)
  rw [addNewProperty, addNewProperty, hfind]
  split
  · rfl
  · exact addProperty_update h p d

end Description

theorem MethodProperty.apply_worksOn (p : MethodProperty) : (p.apply s).WorksOn Part.table := by
  intro update h d
  rw [MethodProperty.apply, MethodProperty.apply, h.componentClass]
  split
  · exact s.unknownMember_ignores h.componentClass _ d
  · split
    · rfl
    · rw [Description.addProperty_update h]
      dsimp only
      split
      · rw [Description.configure_update h]
      · rfl

namespace LayerDocument

variable (layer : LayerDocument)

theorem addClassProperties_update (h : Part.table.Untouched update) (d : Description) :
    layer.addClassProperties s (update d) = update (layer.addClassProperties s d) := by
  rw [addClassProperties, addClassProperties]
  split
  · split
    · rw [Description.addNewProperties_update h, Description.addNewProperties_update h]
    · exact Description.addNewProperties_update h _ d
  · split
    · exact Description.addNewProperties_update h _ d
    · rfl

theorem applyProperties_worksOn : (layer.applyProperties s).WorksOn Part.table := by
  intro update h
  refine (Change.ignores_of fun d ↦ layer.addClassProperties_update s h d).andThen ?_
  refine (Change.Ignores.each (fun p ↦ p.apply_worksOn s update h) _).andThen ?_
  refine Change.ignores_of fun d ↦ ?_
  rw [List.foldl_hom update fun d p ↦ Description.addProperty_update h p d]
  exact List.foldl_hom update fun d o ↦ Description.configure_update h o d

end LayerDocument

/-! ### Constructors -/

theorem ConstructorNote.apply_worksOn (n : ConstructorNote) :
    (n.apply s).WorksOn Part.constructors := by
  intro update h d
  have hfind : (update d).constructor? n.signature = d.constructor? n.signature :=
    congrArg (List.find? fun c : Constructor ↦ c.signature == n.signature) (h.get d)
  rw [ConstructorNote.apply, ConstructorNote.apply, hfind]
  split
  · exact Prod.ext (h.modify (updateFirst _ _) d) rfl
  · exact s.unknownMember_ignores h.componentClass _ d

theorem LayerDocument.applyConstructors_worksOn (layer : LayerDocument) :
    (layer.applyConstructors s).WorksOn Part.constructors :=
  fun update h ↦ Change.Ignores.each (fun n ↦ n.apply_worksOn s update h) _

/-! ### Methods -/

section Methods

variable (h : Part.methods.Untouched update)

include h

theorem Description.method?_update (signature : String) (d : Description) :
    (update d).method? signature = d.method? signature :=
  congrArg (List.find? fun m : Method ↦ m.signature == signature) (h.get d)

theorem Description.addMethod_update (m : Method) (d : Description) :
    (update d).addMethod m = update (d.addMethod m) :=
  h.modify (· ++ [m]) d

theorem Setting.withMethod_ignores {change : Description → Description}
    (hchange : ∀ d, change (update d) = update (change d)) (signature message : String) :
    (s.withMethod signature message change).Ignores update := by
  intro d
  rw [Setting.withMethod, Setting.withMethod, Description.method?_update h]
  split
  · exact Prod.ext (hchange d) rfl
  · split
    · rw [Description.addMethod_update h, hchange]
    · exact s.unknownMember_ignores h.componentClass message d

end Methods

theorem MethodNote.apply_worksOn (n : MethodNote) : (n.apply s).WorksOn Part.methods :=
  fun _ h ↦ s.withMethod_ignores h (fun d ↦ h.modify (updateFirst _ _) d) _ _

theorem MethodOrder.applyTo_worksOn (order : MethodOrder) (signature : String) :
    (order.applyTo s signature).WorksOn Part.methods :=
  fun _ h ↦ s.withMethod_ignores h (fun d ↦ h.modify (updateFirst _ _) d) _ _

theorem MethodOperation.apply_worksOn (o : MethodOperation) : (o.apply s).WorksOn Part.methods := by
  intro update h d
  rw [MethodOperation.apply, MethodOperation.apply]
  split
  · have hadded : (o.matched s).foldl Description.addNewMethod (update d) =
        update ((o.matched s).foldl Description.addNewMethod d) := by
      refine List.foldl_hom update fun d m ↦ ?_
      rw [Description.addNewMethod, Description.addNewMethod, Description.method?_update h]
      split
      · rfl
      · exact Description.addMethod_update h m d
    dsimp only
    rw [hadded]
    split
    · exact s.unknownMember_ignores h.componentClass _ _
    · rfl
  · exact Prod.ext (h.modify (List.filter _) d) rfl

/-- The order of methods without one of their own is a part beside the methods. -/
theorem LayerDocument.applyMethods_ignores (layer : LayerDocument)
    (h : Part.methods.Untouched update) (horder : Part.defaultMethodOrder.Untouched update) :
    (layer.applyMethods s).Ignores update := by
  refine (Change.Ignores.each (fun n ↦ n.apply_worksOn s update h) _).andThen ?_
  refine (Change.Ignores.each (fun o ↦ o.apply_worksOn s update h) _).andThen ?_
  refine (Change.ignores_of fun d ↦ horder.modify (layer.methodOrders.default?.or ·) d).andThen ?_
  exact Change.Ignores.each (fun o ↦ o.2.applyTo_worksOn s o.1 update h) _

/-! ## Keys -/

theorem LayerDocument.apply_ignores_key (layer : LayerDocument) (layerClass : String) (key : Key) :
    (layer.apply s layerClass).Ignores (Part.key.put · key) := by
  have hkey : ∀ {p : Part}, p ≠ .key → p.Untouched (Part.key.put · key) :=
    fun hp ↦ Part.untouched_put hp key
  have hhead : (Change.of (layer.applyHead s layerClass)).Ignores (Part.key.put · key) :=
    Change.ignores_of fun _ ↦ rfl
  refine hhead.andThen ?_
  refine (layer.applyProperties_worksOn s _ (hkey nofun)).andThen ?_
  refine (layer.applyConstructors_worksOn s _ (hkey nofun)).andThen ?_
  exact layer.applyMethods_ignores s (hkey nofun) (hkey nofun)

theorem ClassLayer.addTo_put_key {s : Setting} {l : ClassLayer} {d e : Description}
    (h : l.addTo s d = .ok e) (key : Key) :
    l.addTo s (Part.key.put d key) = .ok (Part.key.put e key) := by
  obtain ⟨a, ha, h⟩ := bind_eq_ok_iff.mp h
  obtain rfl := Except.ok.inj h
  have happly := l.document.apply_ignores_key s l.layerClass key d
  rw [Change.result_eq_ok_iff.mp ha] at happly
  rw [addTo, Change.result_eq_ok_iff.mpr happly, ok_bind, Description.finishLayer,
    Description.finishLayer]
  by_cases hclass : l.layerClass = a.componentClass
  · have hput : l.layerClass = (Part.key.put a key).componentClass := hclass
    rw [if_pos hclass, if_pos hput]
    rfl
  · have hput : l.layerClass ≠ (Part.key.put a key).componentClass := hclass
    rw [if_neg hclass, if_neg hput]
    rfl

/-- **Layers do not see the key** of what they are applied to. -/
theorem Description.compose_put_key {s : Setting} {layers : List ClassLayer} {d e : Description}
    (h : d.compose s layers = .ok e) (key : Key) :
    (Part.key.put d key).compose s layers = .ok (Part.key.put e key) := by
  induction layers generalizing d with
  | nil =>
    obtain rfl := Except.ok.inj h
    rfl
  | cons l layers ih =>
    obtain ⟨m, hm, h⟩ := compose_cons_eq_ok_iff.mp h
    exact compose_cons_eq_ok_iff.mpr ⟨_, ClassLayer.addTo_put_key hm key, ih h⟩

/-! ## Silent layers -/

namespace LayerDocument

/-- The layer says nothing of properties. -/
structure SilentOnProperties (layer : LayerDocument) : Prop where
  beanProperties : layer.beanProperties = false
  fieldProperties : layer.fieldProperties = false
  categories : layer.categories = []
  noDefaultValue : layer.noDefaultValue = []
  propertyTags : layer.propertyTags = []
  methodProperties : layer.methodProperties = []
  overrides : layer.overrides = []
  configurableProperties : layer.configurableProperties = []

/-- The layer says nothing of methods but perhaps a default order. -/
structure SilentOnMethods (layer : LayerDocument) : Prop where
  methods : layer.methods = []
  methodOperations : layer.methodOperations = []
  methodOrders : layer.methodOrders.methods = []

variable {layer : LayerDocument}

theorem SilentOnProperties.applyProperties_eq_skip (h : layer.SilentOnProperties) :
    layer.applyProperties s = Change.skip := by
  have hclass : layer.addClassProperties s = id := by
    funext d
    rw [addClassProperties, h.beanProperties, h.fieldProperties]
    rfl
  have hoverrides : layer.allOverrides = [] := by
    rw [allOverrides, h.categories, h.noDefaultValue, h.propertyTags, h.overrides]
    rfl
  rw [LayerDocument.applyProperties, hclass, hoverrides, h.methodProperties,
    h.configurableProperties]
  rfl

theorem SilentOnMethods.applyMethods_eq (h : layer.SilentOnMethods) :
    layer.applyMethods s = Change.of fun d ↦
      let defaultMethodOrder? := layer.methodOrders.default?.or d.defaultMethodOrder?
      { d with defaultMethodOrder? } := by
  rw [LayerDocument.applyMethods, h.methods, h.methodOperations, h.methodOrders]
  rfl

variable (layer) in
theorem applyMethods_keeps {p : Part} (hmethods : p ≠ .methods) (horder : p ≠ .defaultMethodOrder) :
    (layer.applyMethods s).Keeps p :=
  Change.keeps_of_ignores fun a ↦ layer.applyMethods_ignores s
    (Part.untouched_put hmethods.symm a) (Part.untouched_put horder.symm a)

/-- A layer keeps a part that its head and its three changes keep. -/
theorem apply_keeps {p : Part} {layerClass : String}
    (hhead : ∀ d, p.get (layer.applyHead s layerClass d) = p.get d)
    (hproperties : (layer.applyProperties s).Keeps p)
    (hconstructors : (layer.applyConstructors s).Keeps p)
    (hmethods : (layer.applyMethods s).Keeps p) : (layer.apply s layerClass).Keeps p :=
  Change.Keeps.andThen hhead (hproperties.andThen (hconstructors.andThen hmethods))

variable (layerClass : String)

variable (layer) in
/-- No layer gives the component an icon. -/
theorem apply_keeps_icon : (layer.apply s layerClass).Keeps .icon := by
  refine apply_keeps s (fun _ ↦ rfl) ?_ ?_ ?_
  · exact (layer.applyProperties_worksOn s).keeps nofun
  · exact (layer.applyConstructors_worksOn s).keeps nofun
  · exact layer.applyMethods_keeps s nofun nofun

theorem SilentOnProperties.apply_keeps (h : layer.SilentOnProperties) :
    (layer.apply s layerClass).Keeps .table := by
  refine LayerDocument.apply_keeps s (fun _ ↦ rfl) ?_ ?_ ?_
  · rw [h.applyProperties_eq_skip]
    exact fun _ ↦ rfl
  · exact (layer.applyConstructors_worksOn s).keeps nofun
  · exact layer.applyMethods_keeps s nofun nofun

theorem apply_keeps_constructors (h : layer.constructors = []) :
    (layer.apply s layerClass).Keeps .constructors := by
  refine apply_keeps s (fun _ ↦ rfl) ?_ ?_ ?_
  · exact (layer.applyProperties_worksOn s).keeps nofun
  · rw [applyConstructors, h]
    exact fun _ ↦ rfl
  · exact layer.applyMethods_keeps s nofun nofun

theorem SilentOnMethods.apply_keeps (h : layer.SilentOnMethods) :
    (layer.apply s layerClass).Keeps .methods := by
  refine LayerDocument.apply_keeps s (fun _ ↦ rfl) ?_ ?_ ?_
  · exact (layer.applyProperties_worksOn s).keeps nofun
  · exact (layer.applyConstructors_worksOn s).keeps nofun
  · rw [h.applyMethods_eq]
    exact fun _ ↦ rfl

end LayerDocument

/-- The end of a layer touches no part. -/
theorem Description.get_finishLayer (p : Part) (layerClass : String) (d : Description) :
    p.get (d.finishLayer layerClass) = p.get d := by
  rw [finishLayer]
  split
  · rfl
  · cases p <;> rfl

theorem ClassLayer.get_of_addTo {s : Setting} {l : ClassLayer} {d e : Description} {p : Part}
    (hkeeps : (l.document.apply s l.layerClass).Keeps p) (h : l.addTo s d = .ok e) :
    p.get e = p.get d := by
  obtain ⟨a, ha, h⟩ := bind_eq_ok_iff.mp h
  obtain rfl := Except.ok.inj h
  have hd := hkeeps d
  rw [Change.result_eq_ok_iff.mp ha] at hd
  rw [Description.get_finishLayer, hd]

end ComponentCatalog
