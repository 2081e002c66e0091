import ComponentCatalog.Proofs.Layer.StandardHandlers
import ComponentCatalog.Proofs.Xml.Names

/-!
# Places of elements

An element is placed by its name and the names of the elements around it, the root apart.  Its path
says the same as long as **no name has a slash in it** (`pathOf_injective`), and so do the frames
that are open: `frameTable` lists the places at which the standard rules make a frame, and `kindsAt`
the kinds of the frames that are open inside an element at a place.

**Every standard rule stands at one place**, where the innermost frame is of the kind that its
elements stand in (`standardRules_stand`), but for the two that are for parameters of editors
wherever they are.
-/

set_option autoImplicit false

namespace ComponentCatalog

open Xml

/-! ## Paths -/

/-- The path of the element at a place: names from the inside out, without that of the root. -/
def pathOf : List String → String
  | [] => Rules.rootName
  | name :: outer => childPath (pathOf outer) name

theorem toList_childPath (path name : String) :
    (childPath path name).toList = path.toList ++ '/' :: name.toList := by
  simp [childPath]

theorem childPath_inj {path path' name name' : String} (hname : Plain name) (hname' : Plain name')
    (h : childPath path name = childPath path' name') : path = path' ∧ name = name' := by
  have hlists := congrArg String.toList h
  rw [toList_childPath, toList_childPath, List.append_eq_append_iff] at hlists
  -- the slash of one side would be part of the name on the other
  obtain ⟨between, hpath, hrest⟩ | ⟨between, hpath, hrest⟩ := hlists
  · cases between with
    | nil =>
      rw [List.append_nil] at hpath
      exact ⟨(String.toList_inj.mp hpath).symm, String.toList_inj.mp (List.cons.inj hrest).2⟩
    | cons c between =>
      obtain ⟨-, hrest⟩ := List.cons.inj hrest
      exact absurd (by rw [hrest]; simp) hname
  · cases between with
    | nil =>
      rw [List.append_nil] at hpath
      exact ⟨String.toList_inj.mp hpath, (String.toList_inj.mp (List.cons.inj hrest).2).symm⟩
    | cons c between =>
      obtain ⟨-, hrest⟩ := List.cons.inj hrest
      exact absurd (by rw [hrest]; simp) hname'

theorem childPath_ne_rootName (path name : String) : childPath path name ≠ Rules.rootName := by
  intro h
  have hslash : '/' ∈ (childPath path name).toList := by
    rw [toList_childPath]
    simp
  rw [h] at hslash
  exact absurd hslash (by decide)

/-- A path says where an element is. -/
theorem pathOf_injective {names names' : List String} (h : ∀ name ∈ names, Plain name)
    (h' : ∀ name ∈ names', Plain name) (hpath : pathOf names = pathOf names') : names = names' := by
  induction names generalizing names' with
  | nil =>
    cases names' with
    | nil => rfl
    | cons name' outer' => exact absurd hpath.symm (childPath_ne_rootName _ name')
  | cons name outer ih =>
    cases names' with
    | nil => exact absurd hpath (childPath_ne_rootName _ name)
    | cons name' outer' =>
      obtain ⟨houter, rfl⟩ :=
        childPath_inj (h name List.mem_cons_self) (h' name' List.mem_cons_self) hpath
      rw [ih (fun n hn ↦ h n (List.mem_cons_of_mem _ hn))
        (fun n hn ↦ h' n (List.mem_cons_of_mem _ hn)) houter]

/-- The path of an element begins with those of the elements around it. -/
theorem exists_pathOf_append (inner outer : List String) :
    ∃ rest, pathOf (inner ++ outer) = pathOf outer ++ rest := by
  induction inner with
  | nil => exact ⟨"", String.append_empty.symm⟩
  | cons name inner ih =>
    obtain ⟨rest, hrest⟩ := ih
    refine ⟨rest ++ "/" ++ name, ?_⟩
    rw [List.cons_append, pathOf, childPath, hrest, String.append_assoc, String.append_assoc,
      String.append_assoc]

/-! ## Frames -/

/-- The places at which a standard rule makes a frame, with the kinds of the frames. -/
def frameTable : List (List String × String) :=
  [(["creation"], "creation"),
    (["creation-default"], "creation"),
    (["morphTargets"], "morph targets"),
    (["method-single-property"], "method property"),
    (["method-property"], "method property"),
    (["property"], "property"),
    (["add-property"], "configurable property"),
    (["constructor", "constructors"], "constructor"),
    (["method", "methods"], "method"),
    (["parameter", "constructor", "constructors"], "parameter"),
    (["parameter", "method", "methods"], "parameter"),
    (["methods", "method-order"], "method order group"),
    (["editor", "property"], "editor"),
    (["editor", "method-single-property"], "editor"),
    (["editor", "parameter", "constructor", "constructors"], "editor"),
    (["editor", "parameter", "method", "methods"], "editor")]

/-- The kind of the frame that the element at a place makes, if any. -/
def frameAt? (names : List String) : Option String := frameTable.lookup names

/-- The kinds of the frames that are open inside the element at a place, innermost first. -/
def kindsAt : List String → List String
  | [] => []
  | name :: outer => (frameAt? (name :: outer)).toList ++ kindsAt outer

/-- The rule is for the elements at a place. -/
structure Rule.StandsAt (names : List String) (rule : Rule) : Prop where
  pattern_eq : rule.pattern = pathOf names
  plain : ∀ name ∈ names, Plain name
  obeys : rule.Obeys (kindsAt names.tail).head? (frameAt? names)

/-- The rule is for the elements at some place. -/
def Rule.Stands (rule : Rule) : Prop := ∃ name outer, rule.StandsAt (name :: outer)

namespace StandardRules

theorem headRules_stand : ∀ rule ∈ headRules, rule.Stands := by
  simp only [headRules, List.forall_mem_cons]
  exact ⟨⟨"toolkit", [], rfl, by decide, toolkit_obeys⟩,
    ⟨"model", [], rfl, by decide, model_obeys⟩,
    ⟨"order", [], rfl, by decide, order_obeys⟩,
    ⟨"description", [], rfl, by decide, description_obeys⟩,
    ⟨"parameter", ["parameters"], rfl, by decide, componentParameter_obeys⟩,
    ⟨"include", ["exposing-rules"], rfl, by decide, exposing_obeys _ _⟩,
    ⟨"exclude", ["exposing-rules"], rfl, by decide, exposing_obeys _ _⟩, nofun⟩

theorem creationRules_stand : ∀ rule ∈ creationRules, rule.Stands := by
  simp only [creationRules, creationRulesFor, List.cons_append, List.nil_append,
    List.forall_mem_cons]
  exact ⟨⟨"creation", [], rfl, by decide, creation_obeys _ _⟩,
    ⟨"description", ["creation"], rfl, by decide, creationDescription_obeys _⟩,
    ⟨"source", ["creation"], rfl, by decide, creationSource_obeys _⟩,
    ⟨"invocation", ["creation"], rfl, by decide, creationInvocation_obeys _⟩,
    ⟨"parameter", ["creation"], rfl, by decide, creationParameter_obeys _⟩,
    ⟨"tag", ["creation"], rfl, by decide, creationTag_obeys _⟩,
    ⟨"typeParameter", ["typeParameters", "creation"], rfl, by decide,
      creationTypeParameter_obeys _⟩,
    ⟨"creation-default", [], rfl, by decide, creation_obeys _ _⟩,
    ⟨"description", ["creation-default"], rfl, by decide, creationDescription_obeys _⟩,
    ⟨"source", ["creation-default"], rfl, by decide, creationSource_obeys _⟩,
    ⟨"invocation", ["creation-default"], rfl, by decide, creationInvocation_obeys _⟩,
    ⟨"parameter", ["creation-default"], rfl, by decide, creationParameter_obeys _⟩,
    ⟨"tag", ["creation-default"], rfl, by decide, creationTag_obeys _⟩,
    ⟨"typeParameter", ["typeParameters", "creation-default"], rfl, by decide,
      creationTypeParameter_obeys _⟩, nofun⟩

theorem morphingRules_stand : ∀ rule ∈ morphingRules, rule.Stands := by
  simp only [morphingRules, List.forall_mem_cons]
  exact ⟨⟨"morphTargets", [], rfl, by decide, morphTargets_obeys⟩,
    ⟨"noInherit", ["morphTargets"], rfl, by decide, noInherit_obeys⟩,
    ⟨"morphTarget", ["morphTargets"], rfl, by decide, morphTarget_obeys⟩, nofun⟩

theorem propertyRules_stand : ∀ rule ∈ propertyRules, rule.Stands := by
  simp only [propertyRules, overrideRules, List.cons_append, List.nil_append, List.forall_mem_cons]
  exact ⟨⟨"standard-bean-properties", [], rfl, by decide, beanProperties_obeys⟩,
    ⟨"public-field-properties", [], rfl, by decide, fieldProperties_obeys⟩,
    ⟨"properties-noDefaultValue", [], rfl, by decide, noDefaultValue_obeys⟩,
    ⟨"property-tag", [], rfl, by decide, propertyTag_obeys⟩,
    ⟨"properties-preferred", [], rfl, by decide, category_obeys _ _⟩,
    ⟨"properties-normal", [], rfl, by decide, category_obeys _ _⟩,
    ⟨"properties-advanced", [], rfl, by decide, category_obeys _ _⟩,
    ⟨"properties-advanced-really", [], rfl, by decide, category_obeys _ _⟩,
    ⟨"properties-hidden", [], rfl, by decide, category_obeys _ _⟩,
    ⟨"method-single-property", [], rfl, by decide, methodProperty_obeys _ _⟩,
    ⟨"method-property", [], rfl, by decide, methodProperty_obeys _ _⟩,
    ⟨"property", [], rfl, by decide, property_obeys⟩,
    ⟨"category", ["property"], rfl, by decide, propertyCategory_obeys _ (by decide)⟩,
    ⟨"defaultValue", ["property"], rfl, by decide, propertyDefaultValue_obeys _ (by decide)⟩,
    ⟨"getter", ["property"], rfl, by decide, propertyGetter_obeys _ (by decide)⟩,
    ⟨"tag", ["property"], rfl, by decide, propertyTagOf_obeys _ (by decide)⟩,
    ⟨"category", ["method-single-property"], rfl, by decide, propertyCategory_obeys _ (by decide)⟩,
    ⟨"defaultValue", ["method-single-property"], rfl, by decide,
      propertyDefaultValue_obeys _ (by decide)⟩,
    ⟨"getter", ["method-single-property"], rfl, by decide, propertyGetter_obeys _ (by decide)⟩,
    ⟨"tag", ["method-single-property"], rfl, by decide, propertyTagOf_obeys _ (by decide)⟩,
    ⟨"add-property", [], rfl, by decide, configurableProperty_obeys⟩, nofun⟩

theorem memberRules_stand : ∀ rule ∈ memberRules, rule.Stands := by
  simp only [memberRules, List.forall_mem_cons]
  exact ⟨⟨"constructor", ["constructors"], rfl, by decide, constructor_obeys⟩,
    ⟨"method", ["methods"], rfl, by decide, method_obeys⟩,
    ⟨"tag", ["method", "methods"], rfl, by decide, methodTag_obeys⟩,
    ⟨"methods-include", ["methods"], rfl, by decide, methodOperation_obeys _ _⟩,
    ⟨"methods-exclude", ["methods"], rfl, by decide, methodOperation_obeys _ _⟩,
    ⟨"parameter", ["constructor", "constructors"], rfl, by decide, parameter_obeys _ (by decide)⟩,
    ⟨"tag", ["parameter", "constructor", "constructors"], rfl, by decide, parameterTag_obeys _⟩,
    ⟨"parameter", ["method", "methods"], rfl, by decide, parameter_obeys _ (by decide)⟩,
    ⟨"tag", ["parameter", "method", "methods"], rfl, by decide, parameterTag_obeys _⟩, nofun⟩

theorem orderRules_stand : ∀ rule ∈ orderRules, rule.Stands := by
  simp only [orderRules, List.forall_mem_cons]
  exact ⟨⟨"default", ["method-order"], rfl, by decide, defaultOrder_obeys⟩,
    ⟨"method", ["method-order"], rfl, by decide, methodOrder_obeys⟩,
    ⟨"methods", ["method-order"], rfl, by decide, methodOrderGroup_obeys⟩,
    ⟨"s", ["methods", "method-order"], rfl, by decide, methodOfGroup_obeys⟩, nofun⟩

/-- The rules for the parameters of editors, wherever the editors are. -/
def anywhereRules : List Rule :=
  [editorValue "*/editor/parameter", editorItem "*/editor/parameter-list"]

theorem editorRules_stand : ∀ rule ∈ editorRules, rule.Stands ∨ rule ∈ anywhereRules := by
  simp only [editorRules, List.forall_mem_cons]
  exact ⟨.inl ⟨"editor", ["property"], rfl, by decide, editor_obeys _ (by decide)⟩,
    .inl ⟨"editor", ["method-single-property"], rfl, by decide, editor_obeys _ (by decide)⟩,
    .inl ⟨"editor", ["parameter", "constructor", "constructors"], rfl, by decide,
      editor_obeys _ (by decide)⟩,
    .inl ⟨"editor", ["parameter", "method", "methods"], rfl, by decide,
      editor_obeys _ (by decide)⟩,
    .inr (.head _),
    .inl ⟨"parameter", ["add-property"], rfl, by decide, editorValue_obeys _ (by decide)⟩,
    .inr (.tail _ (.head _)),
    .inl ⟨"parameter-list", ["add-property"], rfl, by decide, editorItem_obeys _ (by decide)⟩,
    nofun⟩

end StandardRules

/-- Every standard rule stands at a place, or is for parameters of editors wherever they are. -/
theorem standardRules_stand :
    ∀ rule ∈ standardRules, rule.Stands ∨ rule ∈ StandardRules.anywhereRules := by
  intro rule h
  simp only [standardRules, List.mem_append] at h
  obtain (((((h | h) | h) | h) | h) | h) | h := h
  · exact .inl (StandardRules.headRules_stand rule h)
  · exact .inl (StandardRules.creationRules_stand rule h)
  · exact .inl (StandardRules.morphingRules_stand rule h)
  · exact .inl (StandardRules.propertyRules_stand rule h)
  · exact .inl (StandardRules.memberRules_stand rule h)
  · exact .inl (StandardRules.orderRules_stand rule h)
  · exact StandardRules.editorRules_stand rule h

namespace StandardRules

variable {rule : Rule}

theorem anywhereRules_obey {kind : String} (hkind : kind ∈ parameterized)
    (hrule : rule ∈ anywhereRules) : rule.Obeys (some kind) none := by
  obtain rfl | rfl : rule = _ ∨ rule = _ := by simpa [anywhereRules] using hrule
  · exact editorValue_obeys _ hkind
  · exact editorItem_obeys _ hkind

end StandardRules

/-- Every standard rule is for elements in some kind of frame. -/
theorem standardRules_obey :
    ∀ rule ∈ standardRules, ∃ top? kind?, rule.Obeys top? kind? := by
  intro rule hrule
  obtain ⟨name, outer, hstands⟩ | hanywhere := standardRules_stand rule hrule
  · exact ⟨_, _, hstands.obeys⟩
  · exact ⟨_, _, StandardRules.anywhereRules_obey (.head _) hanywhere⟩

theorem standardRules_nest : Rules.Nest standardRules := by
  intro rule hrule
  obtain ⟨_, kind?, hobeys⟩ := standardRules_obey rule hrule
  exact ⟨kind?, hobeys.nests⟩

/-! ## Matching rules -/

/-- The path ends with a slash and the names given. -/
def EndsIn (path names : String) : Prop := ∃ outer, path = childPath outer names

theorem patternMatches_anywhere (names path : String) :
    Rule.patternMatches ("*/" ++ names) path ↔ path = names ∨ EndsIn path names := by
  have hrest : Text.afterPrefix? ['*', '/'] ("*/" ++ names).toList = some names.toList := by
    simp [Text.afterPrefix?]
  rw [Rule.patternMatches, hrest, Bool.or_eq_true, beq_iff_eq, String.toList_inj,
    List.isSuffixOf_iff_suffix]
  refine or_congr_right ⟨fun ⟨outer, houter⟩ ↦ ⟨String.ofList outer, ?_⟩, fun ⟨outer, h⟩ ↦ ?_⟩
  · rw [← String.toList_inj, toList_childPath, String.toList_ofList, houter]
  · exact ⟨outer.toList, by rw [h, toList_childPath]⟩

theorem exists_toList_pathOf (names : List String) :
    ∃ rest, (pathOf names).toList = 'c' :: rest := by
  induction names with
  | nil => exact ⟨_, String.toList_ofList⟩
  | cons name outer ih =>
    obtain ⟨rest, hrest⟩ := ih
    exact ⟨rest ++ '/' :: name.toList, by rw [pathOf, toList_childPath, hrest, List.cons_append]⟩

theorem Rule.StandsAt.matches_iff {rule : Rule} {names : List String} (h : rule.StandsAt names)
    (path : String) : rule.matches path ↔ rule.pattern = path := by
  obtain ⟨rest, hrest⟩ := exists_toList_pathOf names
  have hpattern : Text.afterPrefix? ['*', '/'] rule.pattern.toList = none := by
    rw [h.pattern_eq, hrest]
    simp [Text.afterPrefix?]
  rw [Rule.matches, Rule.patternMatches, hpattern, beq_iff_eq]

/-- A path that ends with two names says of which elements. -/
theorem exists_of_pathOf_eq {names : List String} (hnames : ∀ name ∈ names, Plain name)
    {path first second : String} (hfirst : Plain first) (hsecond : Plain second)
    (h : pathOf names = childPath (childPath path first) second) :
    ∃ outer, names = second :: first :: outer := by
  cases names with
  | nil => exact absurd h.symm (childPath_ne_rootName _ _)
  | cons name outer =>
    obtain ⟨houter, rfl⟩ := childPath_inj (hnames name List.mem_cons_self) hsecond h
    cases outer with
    | nil => exact absurd houter.symm (childPath_ne_rootName _ _)
    | cons name' outer' =>
      have hname' := hnames name' (List.mem_cons_of_mem _ List.mem_cons_self)
      obtain ⟨-, rfl⟩ := childPath_inj hname' hfirst houter
      exact ⟨outer', rfl⟩

/-- An element for a parameter of an editor, wherever the editor is. -/
def IsEditorParameter (path : String) : Prop :=
  EndsIn path "editor/parameter" ∨ EndsIn path "editor/parameter-list"

section

variable {names : List String} {rule : Rule}

theorem pathOf_ne_of_head? {text : String} (htext : text.toList.head? ≠ some 'c') :
    pathOf names ≠ text := by
  rintro rfl
  obtain ⟨rest, hrest⟩ := exists_toList_pathOf names
  exact htext (by rw [hrest, List.head?_cons])

theorem StandardRules.isEditorParameter_of_matches (hrule : rule ∈ anywhereRules)
    (hmatches : rule.matches (pathOf names)) : IsEditorParameter (pathOf names) := by
  obtain rfl | rfl : rule = _ ∨ rule = _ := by simpa [anywhereRules] using hrule
  · obtain h | h := (patternMatches_anywhere "editor/parameter" _).mp hmatches
    · exact absurd h (pathOf_ne_of_head? (by simp))
    · exact .inl h
  · obtain h | h := (patternMatches_anywhere "editor/parameter-list" _).mp hmatches
    · exact absurd h (pathOf_ne_of_head? (by simp))
    · exact .inr h

theorem StandardRules.pattern_ne_of_mem_anywhereRules (hrule : rule ∈ anywhereRules) :
    pathOf names ≠ rule.pattern := by
  obtain rfl | rfl : rule = _ ∨ rule = _ := by simpa [anywhereRules] using hrule
  · exact pathOf_ne_of_head? (by simp [editorValue])
  · exact pathOf_ne_of_head? (by simp [editorItem])

/-- A path ends with the name of an editor and another one where the elements have these names. -/
theorem endsIn_editor_iff (hnames : ∀ name ∈ names, Plain name) (name : String)
    (hname : Plain name) :
    EndsIn (pathOf names) ("editor/" ++ name) ↔ ∃ outer, names = name :: "editor" :: outer := by
  have hsplit : ∀ outer : String,
      childPath outer ("editor/" ++ name) = childPath (childPath outer "editor") name := by
    intro outer
    simp only [childPath, String.append_assoc]
    rfl
  constructor
  · rintro ⟨outer, h⟩
    exact exists_of_pathOf_eq hnames (by decide) hname (h.trans (hsplit outer))
  · rintro ⟨outer, rfl⟩
    exact ⟨pathOf outer, (hsplit _).symm⟩

/-- A parameter of an editor is in an element with the name of an editor. -/
theorem exists_of_isEditorParameter (hnames : ∀ name ∈ names, Plain name)
    (h : IsEditorParameter (pathOf names)) :
    ∃ name outer, names = name :: "editor" :: outer ∧
      (name = "parameter" ∨ name = "parameter-list") := by
  obtain h | h := h
  · obtain ⟨outer, rfl⟩ := (endsIn_editor_iff hnames "parameter" (by decide)).mp h
    exact ⟨_, outer, rfl, .inl rfl⟩
  · obtain ⟨outer, rfl⟩ := (endsIn_editor_iff hnames "parameter-list" (by decide)).mp h
    exact ⟨_, outer, rfl, .inr rfl⟩

/-- A rule is for the elements at its own path, unless they are for parameters of editors. -/
theorem StandardRules.matches_iff_pattern_eq (hrule : rule ∈ standardRules)
    (hother : ¬IsEditorParameter (pathOf names)) :
    rule.matches (pathOf names) ↔ rule.pattern = pathOf names := by
  obtain ⟨name, outer, hstands⟩ | hanywhere := standardRules_stand rule hrule
  · exact hstands.matches_iff _
  · constructor
    · exact fun h ↦ absurd (isEditorParameter_of_matches hanywhere h) hother
    · exact fun h ↦ absurd h.symm (pattern_ne_of_mem_anywhereRules hanywhere)

/-- At the parameters of editors no frame is made. -/
theorem frameAt?_of_isEditorParameter (hnames : ∀ name ∈ names, Plain name)
    (h : IsEditorParameter (pathOf names)) : frameAt? names = none := by
  obtain ⟨name, outer, rfl, rfl | rfl⟩ := exists_of_isEditorParameter hnames h
  · rfl
  · rfl

theorem not_isEditorParameter {name : String} {outer : List String}
    (hnames : ∀ n ∈ name :: outer, Plain n) (h : outer.head? ≠ some "editor") :
    ¬IsEditorParameter (pathOf (name :: outer)) := by
  intro hparameter
  obtain ⟨_, _, heq, -⟩ := exists_of_isEditorParameter hnames hparameter
  obtain ⟨-, rfl⟩ := List.cons.inj heq
  exact h List.head?_cons

/-- Unless an element is for a parameter of an editor, the rules with its path match. -/
theorem StandardRules.filter_matches_eq (hother : ¬IsEditorParameter (pathOf names)) :
    standardRules.filter (·.matches (pathOf names)) =
      standardRules.filter (·.pattern = pathOf names) := by
  refine List.filter_congr fun rule hrule ↦ ?_
  rw [Bool.eq_iff_iff, decide_eq_true_iff, matches_iff_pattern_eq hrule hother]

/-- A rule that matches an element stands at its place, or the element is for a parameter of an
editor. -/
theorem standsAt_of_matches (hnames : ∀ name ∈ names, Plain name) (hrule : rule ∈ standardRules)
    (hmatches : rule.matches (pathOf names)) :
    rule.StandsAt names ∨
      rule ∈ StandardRules.anywhereRules ∧ IsEditorParameter (pathOf names) := by
  obtain ⟨name, outer, hstands⟩ | hanywhere := standardRules_stand rule hrule
  · have hpath := hstands.pattern_eq.symm.trans ((hstands.matches_iff _).mp hmatches)
    obtain rfl := pathOf_injective hstands.plain hnames hpath
    exact .inl hstands
  · exact .inr ⟨hanywhere, StandardRules.isEditorParameter_of_matches hanywhere hmatches⟩

/-- At every place at which a frame is made stands one rule. -/
theorem countP_pattern_frameTable : ∀ entry ∈ frameTable,
    standardRules.countP (·.pattern == pathOf entry.1) = 1 := by
  decide +kernel

theorem exists_filter_eq_of_frameAt? (hnames : ∀ name ∈ names, Plain name) {kind : String}
    (hframe : frameAt? names = some kind) :
    ∃ rule, standardRules.filter (·.matches (pathOf names)) = [rule] ∧ rule.StandsAt names := by
  have hother : ¬IsEditorParameter (pathOf names) := by
    intro h
    rw [frameAt?_of_isEditorParameter hnames h] at hframe
    cases hframe
  have hstands : ∀ rule ∈ standardRules, rule.matches (pathOf names) → rule.StandsAt names :=
    fun rule hrule hmatches ↦
      (standsAt_of_matches hnames hrule hmatches).resolve_right fun h ↦ hother h.2
  have hpattern : standardRules.countP (·.matches (pathOf names)) =
      standardRules.countP (·.pattern == pathOf names) := by
    refine List.countP_congr fun rule hrule ↦ ?_
    rw [StandardRules.matches_iff_pattern_eq hrule hother, beq_iff_eq]
  obtain ⟨before, after, htable, -⟩ := List.lookup_eq_some_iff.mp hframe
  have hentry : (names, kind) ∈ frameTable := by
    rw [htable]
    exact List.mem_append_right _ List.mem_cons_self
  rw [countP_pattern_frameTable _ hentry, List.countP_eq_length_filter] at hpattern
  obtain ⟨rule, hfilter⟩ := List.length_eq_one_iff.mp hpattern
  have hrule : rule ∈ standardRules.filter (·.matches (pathOf names)) := by
    rw [hfilter]
    exact List.mem_cons_self
  obtain ⟨hrule, hmatches⟩ := List.mem_filter.mp hrule
  exact ⟨rule, hfilter, hstands rule hrule hmatches⟩

end

/-! ## Places of calls -/

namespace Rules

variable {rules : List Rule} {c : Call}

mutual

/-- A call for an element at a place is by a rule that matches elements there or further inside. -/
theorem exists_mem_filter_of_mem_calls : ∀ {names : List String} {e : Element},
    (∀ child ∈ e.children, child.Plain) → c ∈ calls rules (pathOf names) e →
      ∃ inner, (∀ n ∈ inner, Plain n) ∧
        c.rule ∈ rules.filter (·.matches (pathOf (inner ++ names)))
  | names, ⟨name, attributes, text, children⟩, hchildren, h => by
    rw [calls] at h
    simp only [List.mem_append, List.mem_map, List.mem_reverse] at h
    obtain (⟨rule, hrule, rfl⟩ | h) | ⟨rule, hrule, rfl⟩ := h
    · exact ⟨[], List.forall_mem_nil _, hrule⟩
    · exact exists_mem_filter_of_mem_childCalls hchildren h
    · exact ⟨[], List.forall_mem_nil _, hrule⟩

theorem exists_mem_filter_of_mem_childCalls : ∀ {names : List String} {children : List Element},
    (∀ child ∈ children, child.Plain) → c ∈ childCalls rules (pathOf names) children →
      ∃ inner, (∀ n ∈ inner, Plain n) ∧
        c.rule ∈ rules.filter (·.matches (pathOf (inner ++ names)))
  | names, [], _, h => by
    rw [childCalls] at h
    cases h
  | names, child :: rest, hplain, h => by
    rw [List.forall_mem_cons, Element.plain_iff] at hplain
    obtain ⟨⟨hname, hchild⟩, hrest⟩ := hplain
    rw [childCalls] at h
    rcases List.mem_append.mp h with h | h
    · have hcall : c ∈ calls rules (pathOf (child.name :: names)) child := h
      obtain ⟨inner, hinner, hrule⟩ := exists_mem_filter_of_mem_calls hchild hcall
      refine ⟨inner ++ [child.name], ?_, ?_⟩
      · exact List.forall_mem_append.mpr ⟨hinner, List.forall_mem_singleton.mpr hname⟩
      · rwa [List.append_assoc]
    · exact exists_mem_filter_of_mem_childCalls hrest h

end

end Rules

open Rules in
/-- A rule for the elements of a name right under the root is called for these alone. -/
theorem StandardRules.pattern_ne_of_mem_calls {e : Element} {name : String} (hname : Plain name)
    (hplain : e.Plain) (hne : e.name ≠ name) {c : Call}
    (hc : c ∈ calls standardRules (pathOf [e.name]) e) : c.rule.pattern ≠ pathOf [name] := by
  intro hpattern
  obtain ⟨hown, hchildren⟩ := Element.plain_iff.mp hplain
  obtain ⟨inner, hinner, hrule⟩ := exists_mem_filter_of_mem_calls hchildren hc
  obtain ⟨hrule, hmatches⟩ := List.mem_filter.mp hrule
  have hnames : ∀ n ∈ inner ++ [e.name], Plain n :=
    List.forall_mem_append.mpr ⟨hinner, List.forall_mem_singleton.mpr hown⟩
  obtain hstands | ⟨hanywhere, -⟩ := standsAt_of_matches hnames hrule hmatches
  · have heq := pathOf_injective hnames (List.forall_mem_singleton.mpr hname)
      (hstands.pattern_eq.symm.trans hpattern)
    have hlast := congrArg List.getLast? heq
    rw [List.getLast?_concat, List.getLast?_singleton] at hlast
    exact hne (Option.some.inj hlast)
  · exact pattern_ne_of_mem_anywhereRules hanywhere hpattern.symm

end ComponentCatalog
