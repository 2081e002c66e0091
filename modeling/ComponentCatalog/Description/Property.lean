import ComponentCatalog.Description.Creation

/-!
# Properties

The properties of a component, and the overrides that metadata gives for them.  An override names
its property by a selector, which is the property's identifier or, failing that, its title.  What an
override leaves open stays as it was.
-/

set_option autoImplicit false

namespace ComponentCatalog

/-- How prominently a property is shown. -/
inductive PropertyCategory where
  | preferred
  | normal
  | advanced
  | advancedReally
  | hidden
deriving DecidableEq, Repr

namespace PropertyCategory

/-- The word for a category. -/
def word : PropertyCategory → String
  | preferred => "preferred"
  | normal => "normal"
  | advanced => "advanced"
  | advancedReally => "advanced-really"
  | hidden => "hidden"

/-- Reads a category. -/
def parse (text : String) : Except String PropertyCategory :=
  match [preferred, normal, advanced, advancedReally, hidden].find? (·.word == text) with
  | some category => .ok category
  | none => .error ("unknown property category '" ++ text ++ "'")

end PropertyCategory

/-- Where a property comes from. -/
inductive PropertyKind where
  /-- A setter of a bean. -/
  | beanSetter
  /-- A public field. -/
  | field
  /-- A method with one parameter that metadata names. -/
  | singleMethod
  /-- A method with any parameters that metadata names. -/
  | method
  /-- Metadata alone, with parameters for its editor. -/
  | configurable
deriving DecidableEq, Repr

/-- The word for a kind of property. -/
def PropertyKind.word : PropertyKind → String
  | beanSetter => "bean_setter"
  | field => "field"
  | singleMethod => "single_method"
  | method => "method"
  | configurable => "configurable"

/-- Parameters of an editor: single values, and lists. -/
structure EditorParameters where
  values : NameMap String := .empty
  lists : NameMap (List String) := .empty
deriving DecidableEq

namespace EditorParameters

/-- Whether there is no parameter. -/
def isEmpty (p : EditorParameters) : Bool := p.values.isEmpty && p.lists.isEmpty

/-- Sets a value. -/
def setValue (p : EditorParameters) (name value : String) : EditorParameters :=
  { p with values := p.values.insert name value }

/-- Adds an item at the end of a list. -/
def addItem (p : EditorParameters) (name item : String) : EditorParameters :=
  { p with lists := p.lists.insert name ((p.lists.get? name).getD [] ++ [item]) }

end EditorParameters

/-- An editor for values. -/
structure Editor where
  id : String
  parameters : EditorParameters := {}
deriving DecidableEq

/-- A property of a component. -/
structure Property where
  /-- The signature of the method, or the name of the field, behind the property. -/
  id : String
  title : String
  kind : PropertyKind
  typeName? : Option String := none
  category : PropertyCategory := .normal
  editor? : Option Editor := none
  /-- The expression for the default value. -/
  defaultValue? : Option String := none
  getter? : Option String := none
  noDefaultValue : Bool := false
  tags : Tags := .empty
  /-- Parameters for the editor, of a configurable property. -/
  parameters : EditorParameters := {}
deriving DecidableEq

/-- An override for the property that `selector` names. -/
structure PropertyOverride where
  selector : String
  category? : Option PropertyCategory := none
  editor? : Option Editor := none
  defaultValue? : Option String := none
  getter? : Option String := none
  noDefaultValue : Bool := false
  tags : Tags := .empty
deriving DecidableEq

/-- Whether a selector is the identifier or the title of the property. -/
def Property.matches (p : Property) (selector : String) : Bool :=
  p.id == selector || p.title == selector

/-- The property with what the override sets. -/
def PropertyOverride.apply (o : PropertyOverride) (p : Property) : Property :=
  { p with
    category := o.category?.getD p.category
    editor? := o.editor?.or p.editor?
    defaultValue? := o.defaultValue?.or p.defaultValue?
    getter? := o.getter?.or p.getter?
    noDefaultValue := p.noDefaultValue || o.noDefaultValue
    tags := p.tags.overlay o.tags }

/-! ## Property tables -/

universe u

/-- Changes the first member of a list that satisfies `which`. -/
def updateFirst {α : Type u} (which : α → Bool) (change : α → α) : List α → List α
  | [] => []
  | a :: rest => if which a then change a :: rest else a :: updateFirst which change rest

/-- The properties of a component in order, and the overrides that have found no property yet, in
the order in which they were given. -/
structure PropertyTable where
  properties : List Property := []
  pending : List PropertyOverride := []
deriving DecidableEq

namespace PropertyTable

/-- Puts a property in place of the one with the same identifier, or at the end. -/
def put (p : Property) : List Property → List Property
  | [] => [p]
  | q :: rest => if q.id = p.id then p :: rest else q :: put p rest

/-- Adds a property, or replaces the one with its identifier.  The pending overrides that name it
are applied to it first. -/
def add (t : PropertyTable) (p : Property) : PropertyTable where
  properties := put ((t.pending.filter (p.matches ·.selector)).foldl (fun p o ↦ o.apply p) p)
    t.properties
  pending := t.pending.filter (!p.matches ·.selector)

/-- The property that a selector names: by its identifier or else by its title. -/
def find? (t : PropertyTable) (selector : String) : Option Property :=
  (t.properties.find? (·.id == selector)).or (t.properties.find? (·.title == selector))

/-- Changes the property that a selector names, if there is one. -/
def update (t : PropertyTable) (selector : String) (change : Property → Property) :
    PropertyTable :=
  { t with
    properties :=
      if t.properties.any (·.id == selector) then updateFirst (·.id == selector) change t.properties
      else updateFirst (·.title == selector) change t.properties }

/-- Applies an override to its property, or keeps it until there is one. -/
def configure (t : PropertyTable) (o : PropertyOverride) : PropertyTable :=
  if (t.find? o.selector).isSome then t.update o.selector o.apply
  else { t with pending := t.pending ++ [o] }

/-- Applies the pending overrides that name a property by now, and drops the others. -/
def join (t : PropertyTable) : PropertyTable :=
  t.pending.foldl (fun t o ↦ t.update o.selector o.apply) { t with pending := [] }

end PropertyTable

end ComponentCatalog
