import ComponentCatalog.Proofs.Layer.Places

/-!
# What patterns ask of names

The pattern of a rule is a text that is compared with the text of a path.  What it asks, it asks of
the names along the path: `PathPattern.ofText` reads it as a list of names that the path is made of,
or that it ends with, and **a path matches exactly if its names are as the pattern asks**
(`patternMatches_iff_takes`).  A name is never taken in part.

So which rules get into each other's way can be told from the patterns alone: two patterns that take
the same path have names in common in one of three ways (`PathPattern.Meets`).  No two patterns of
the standard rules do, which is checked on `standardPatterns`, the list of them name by name.
-/

set_option autoImplicit false

namespace ComponentCatalog

/-! ## Patterns -/

/-- What a pattern asks of the names along a path, from the root inwards. -/
inductive PathPattern where
  /-- They are these. -/
  | whole (names : List String)
  /-- They end with these. -/
  | ending (names : List String)
deriving DecidableEq

namespace PathPattern

/-- The names of the pattern. -/
def names : PathPattern → List String
  | .whole names | .ending names => names

/-- How the pattern is written. -/
def text : PathPattern → String
  | .whole names => "/".intercalate names
  | .ending names => "*/" ++ "/".intercalate names

/-- The pattern that a text stands for. -/
def ofText (text : String) : PathPattern :=
  match Text.afterPrefix? ['*', '/'] text.toList with
  | some rest => .ending (Text.split '/' (String.ofList rest))
  | none => .whole (Text.split '/' text)

/-- The names are as the pattern asks. -/
def Takes : PathPattern → List String → Prop
  | .whole own, names => own = names
  | .ending own, names => own <:+ names

/-- The names of two patterns go together, as they have to for both to take the same path. -/
def Meets : PathPattern → PathPattern → Prop
  | .whole own, .whole other => own = other
  | .whole own, .ending other => other <:+ own
  | .ending own, .whole other => own <:+ other
  | .ending own, .ending other => own <:+ other ∨ other <:+ own

instance : (p q : PathPattern) → Decidable (p.Meets q)
  | .whole own, .whole other => inferInstanceAs (Decidable (own = other))
  | .whole own, .ending other => inferInstanceAs (Decidable (other <:+ own))
  | .ending own, .whole other => inferInstanceAs (Decidable (own <:+ other))
  | .ending own, .ending other => inferInstanceAs (Decidable (own <:+ other ∨ other <:+ own))

theorem meets_of_takes {p q : PathPattern} {names : List String} (hp : p.Takes names)
    (hq : q.Takes names) : p.Meets q := by
  cases p with
  | whole own =>
    obtain rfl : own = names := hp
    cases q with
    | whole other => exact hq.symm
    | ending other => exact hq
  | ending own =>
    cases q with
    | whole other =>
      obtain rfl : other = names := hq
      exact hp
    | ending other => exact List.suffix_or_suffix_of_suffix hp hq

/-! ## Reading patterns -/

theorem ofText_anywhere (rest : String) :
    ofText ("*/" ++ rest) = .ending (Text.split '/' rest) := by
  simp [ofText, Text.afterPrefix?]

theorem afterPrefix?_of_ne {text : String} (h : ∀ rest, text ≠ "*/" ++ rest) :
    Text.afterPrefix? ['*', '/'] text.toList = none := by
  rw [Text.afterPrefix?, if_neg]
  intro hstarts
  obtain ⟨rest, hrest⟩ := List.isPrefixOf_iff_prefix.mp hstarts
  exact h (String.ofList rest) (String.toList_inj.mp (by simpa using hrest.symm))

theorem ofText_of_ne {text : String} (h : ∀ rest, text ≠ "*/" ++ rest) :
    ofText text = .whole (Text.split '/' text) := by
  rw [ofText, afterPrefix?_of_ne h]

theorem split_pathText {names : List String} (hplain : ∀ name ∈ names, Plain name)
    (hne : names ≠ []) : Text.split '/' ("/".intercalate names) = names :=
  Text.split_intercalate_of_not_mem hplain hne

/-- A pattern of plain names, none of them the star, is what it is written as. -/
theorem ofText_text {p : PathPattern} (hplain : ∀ name ∈ p.names, Plain name)
    (hne : p.names ≠ []) (hfirst : p.names.head? ≠ some "*") : ofText p.text = p := by
  cases p with
  | ending own =>
    have hsplit : Text.split '/' ("/".intercalate own) = own := split_pathText hplain hne
    rw [text, ofText_anywhere, hsplit]
  | whole own =>
    have hsplit : Text.split '/' ("/".intercalate own) = own := split_pathText hplain hne
    rw [text, ofText_of_ne, hsplit]
    intro rest hrest
    have hstar : Text.split '/' ("*/" ++ rest) = "*" :: Text.split '/' rest := by
      rw [Text.split, String.toList_append]
      exact congrArg _ (List.splitOn_append_cons_self ['*'] rest.toList)
    rw [hrest, hstar] at hsplit
    exact hfirst (by rw [names, ← hsplit, List.head?_cons])

end PathPattern

/-! ## Matching by names -/

theorem patternMatches_of_ne {pattern : String} (h : ∀ rest, pattern ≠ "*/" ++ rest)
    (path : String) : Rule.patternMatches pattern path ↔ pattern = path := by
  rw [Rule.patternMatches, PathPattern.afterPrefix?_of_ne h, beq_iff_eq]

/-- A path ends with a text, after a slash or as a whole, where its names end with those of the
text. -/
theorem split_suffix_iff_endsIn (path rest : String) :
    Text.split '/' rest <:+ Text.split '/' path ↔ path = rest ∨ EndsIn path rest := by
  rw [Text.split_suffix_iff]
  refine or_congr_right ⟨fun ⟨outer, houter⟩ ↦ ⟨String.ofList outer, ?_⟩, fun ⟨outer, h⟩ ↦ ?_⟩
  · rw [← String.toList_inj, toList_childPath, String.toList_ofList, houter]
  · exact ⟨outer.toList, by rw [h, toList_childPath]⟩

/-- **A path matches if its names are as the pattern asks.** -/
theorem patternMatches_iff_takes {names : List String} (hplain : ∀ name ∈ names, Plain name)
    (hne : names ≠ []) (pattern : String) :
    Rule.patternMatches pattern ("/".intercalate names) ↔
      (PathPattern.ofText pattern).Takes names := by
  have hsplit := PathPattern.split_pathText hplain hne
  by_cases h : ∃ rest, pattern = "*/" ++ rest
  · obtain ⟨rest, rfl⟩ := h
    rw [patternMatches_anywhere, ← split_suffix_iff_endsIn, hsplit, PathPattern.ofText_anywhere]
    rfl
  · have h : ∀ rest, pattern ≠ "*/" ++ rest := fun rest hrest ↦ h ⟨rest, hrest⟩
    rw [patternMatches_of_ne h, PathPattern.ofText_of_ne h, PathPattern.Takes]
    constructor
    · intro heq
      rw [heq, hsplit]
    · exact fun heq ↦ Text.split_injective (heq.trans hsplit.symm)

/-! ## The standard patterns -/

namespace StandardRules

/-- The patterns for elements with some names, in elements of others under the root. -/
def within (outer names : List String) : List PathPattern :=
  names.map fun name ↦ .whole (Rules.rootName :: outer ++ [name])

/-- The names that have a rule where the names around them are given, in the order of the rules. -/
def outline : List (List String × List String) :=
  [([], ["toolkit", "model", "order", "description"]),
    (["parameters"], ["parameter"]),
    (["exposing-rules"], ["include", "exclude"]),
    ([], ["creation"]),
    (["creation"], ["description", "source", "invocation", "parameter", "tag"]),
    (["creation", "typeParameters"], ["typeParameter"]),
    ([], ["creation-default"]),
    (["creation-default"], ["description", "source", "invocation", "parameter", "tag"]),
    (["creation-default", "typeParameters"], ["typeParameter"]),
    ([], ["morphTargets"]),
    (["morphTargets"], ["noInherit", "morphTarget"]),
    ([], ["standard-bean-properties", "public-field-properties", "properties-noDefaultValue",
      "property-tag", "properties-preferred", "properties-normal", "properties-advanced",
      "properties-advanced-really", "properties-hidden", "method-single-property",
      "method-property", "property"]),
    (["property"], ["category", "defaultValue", "getter", "tag"]),
    (["method-single-property"], ["category", "defaultValue", "getter", "tag"]),
    ([], ["add-property"]),
    (["constructors"], ["constructor"]),
    (["methods"], ["method"]),
    (["methods", "method"], ["tag"]),
    (["methods"], ["methods-include", "methods-exclude"]),
    (["constructors", "constructor"], ["parameter"]),
    (["constructors", "constructor", "parameter"], ["tag"]),
    (["methods", "method"], ["parameter"]),
    (["methods", "method", "parameter"], ["tag"]),
    (["method-order"], ["default", "method", "methods"]),
    (["method-order", "methods"], ["s"]),
    (["property"], ["editor"]),
    (["method-single-property"], ["editor"]),
    (["constructors", "constructor", "parameter"], ["editor"]),
    (["methods", "method", "parameter"], ["editor"])]

/-- The patterns of the standard rules.  The last ones are for parameters of editors, wherever the
editors are, and of configurable properties. -/
def patterns : List PathPattern :=
  (outline.flatMap fun (outer, names) ↦ within outer names) ++
    [.ending ["editor", "parameter"]] ++ within ["add-property"] ["parameter"] ++
    [.ending ["editor", "parameter-list"]] ++ within ["add-property"] ["parameter-list"]

theorem map_pattern_standardRules : standardRules.map (·.pattern) = patterns.map (·.text) := by
  decide +kernel

theorem plain_outline :
    ∀ entry ∈ outline, (∀ name ∈ entry.1, Plain name) ∧ ∀ name ∈ entry.2, Plain name := by
  simp [outline, Plain]

theorem ofText_text_within {outer names : List String} (houter : ∀ name ∈ outer, Plain name)
    (hnames : ∀ name ∈ names, Plain name) :
    ∀ p ∈ within outer names, PathPattern.ofText p.text = p := by
  intro p hp
  obtain ⟨name, hname, rfl⟩ := List.mem_map.mp hp
  have hplain : ∀ n ∈ Rules.rootName :: outer ++ [name], Plain n := by
    rw [List.cons_append, List.forall_mem_cons, List.forall_mem_append, List.forall_mem_singleton]
    exact ⟨by simp [Rules.rootName, Plain], houter, hnames name hname⟩
  exact PathPattern.ofText_text hplain (List.cons_ne_nil _ _)
    (by simp [PathPattern.names, Rules.rootName])

theorem ofText_text_of_mem_patterns : ∀ p ∈ patterns, PathPattern.ofText p.text = p := by
  unfold patterns
  simp only [List.forall_mem_append, List.forall_mem_flatMap, List.forall_mem_singleton]
  refine ⟨⟨⟨⟨?_, ?_⟩, ?_⟩, ?_⟩, ?_⟩
  · exact fun entry hentry ↦
      ofText_text_within (plain_outline entry hentry).1 (plain_outline entry hentry).2
  · exact PathPattern.ofText_text (by simp [PathPattern.names, Plain]) (List.cons_ne_nil _ _)
      (by simp [PathPattern.names])
  · exact ofText_text_within (by simp [Plain]) (by simp [Plain])
  · exact PathPattern.ofText_text (by simp [PathPattern.names, Plain]) (List.cons_ne_nil _ _)
      (by simp [PathPattern.names])
  · exact ofText_text_within (by simp [Plain]) (by simp [Plain])

/-- No two of the standard patterns go together. -/
theorem pairwise_patterns : patterns.Pairwise fun p q ↦ ¬p.Meets q := by
  decide +kernel

/-- No two of the standard rules match the same path. -/
theorem pairwise_standardRules {names : List String} (hplain : ∀ name ∈ names, Plain name)
    (hne : names ≠ []) :
    standardRules.Pairwise fun rule rule' ↦
      ¬(rule.matches ("/".intercalate names) ∧ rule'.matches ("/".intercalate names)) := by
  have hpatterns : standardRules.map (PathPattern.ofText ·.pattern) = patterns := calc
    standardRules.map (PathPattern.ofText ·.pattern)
      = (standardRules.map (·.pattern)).map PathPattern.ofText := by rw [List.map_map]; rfl
    _ = patterns.map fun p ↦ PathPattern.ofText p.text := by
      rw [map_pattern_standardRules, List.map_map]; rfl
    _ = patterns := by rw [List.map_congr_left ofText_text_of_mem_patterns, List.map_id']
  have hpairs := pairwise_patterns
  rw [← hpatterns, List.pairwise_map] at hpairs
  refine hpairs.imp fun hmeets hboth ↦ hmeets ?_
  exact PathPattern.meets_of_takes ((patternMatches_iff_takes hplain hne _).mp hboth.1)
    ((patternMatches_iff_takes hplain hne _).mp hboth.2)

end StandardRules

/-- **Patterns match whole names.**  A path of plain names matches a pattern without `*/` in front
if these are the names between the slashes of the pattern, and a pattern with `*/` if they end with
the names between the slashes of the rest.  So no path at all is matched by two of the standard
rules. -/
theorem matches_iff_names {names : List String} (hplain : ∀ name ∈ names, Plain name)
    (hne : names ≠ []) :
    (∀ rule : Rule, rule.matches ("/".intercalate names) ↔
      (∀ rest, rule.pattern ≠ "*/" ++ rest) ∧ Text.split '/' rule.pattern = names ∨
        ∃ rest, rule.pattern = "*/" ++ rest ∧ Text.split '/' rest <:+ names) ∧
    ∀ (i j : Nat) (rule rule' : Rule), standardRules[i]? = some rule →
      standardRules[j]? = some rule' → rule.matches ("/".intercalate names) →
        rule'.matches ("/".intercalate names) → i = j := by
  constructor
  · intro rule
    rw [Rule.matches, patternMatches_iff_takes hplain hne]
    by_cases h : ∃ rest, rule.pattern = "*/" ++ rest
    · obtain ⟨rest, hrest⟩ := h
      rw [hrest, PathPattern.ofText_anywhere]
      constructor
      · exact fun htakes ↦ .inr ⟨rest, rfl, htakes⟩
      · rintro (⟨hne, -⟩ | ⟨rest', hrest', hends⟩)
        · exact absurd rfl (hne rest)
        · rwa [(String.append_right_inj _).mp hrest']
    · have hpattern : ∀ rest, rule.pattern ≠ "*/" ++ rest := fun rest hrest ↦ h ⟨rest, hrest⟩
      rw [PathPattern.ofText_of_ne hpattern]
      constructor
      · exact fun htakes ↦ .inl ⟨hpattern, htakes⟩
      · rintro (⟨-, hsplit⟩ | hrest)
        · exact hsplit
        · exact absurd (hrest.imp fun _ ↦ And.left) h
  · intro i j rule rule' hi hj hmatches hmatches'
    have hpairs := List.pairwise_iff_getElem.mp (StandardRules.pairwise_standardRules hplain hne)
    obtain ⟨hi', rfl⟩ := List.getElem?_eq_some_iff.mp hi
    obtain ⟨hj', rfl⟩ := List.getElem?_eq_some_iff.mp hj
    rcases Nat.lt_trichotomy i j with hlt | heq | hlt
    · exact absurd ⟨hmatches, hmatches'⟩ (hpairs i j hi' hj' hlt)
    · exact heq
    · exact absurd ⟨hmatches', hmatches⟩ (hpairs j i hj' hi' hlt)

/-- The parameter of an editor has one rule; what is inside another element has none for that. -/
theorem matches_iff_names_editor :
    let rule := StandardRules.editorValue "*/editor/parameter"
    let names := ["component", "property", "editor", "parameter"]
    let others := ["component", "property", "xeditor", "parameter"]
    (∀ name ∈ names, Plain name) ∧ (∀ name ∈ others, Plain name) ∧
      rule.matches ("/".intercalate names) ∧ ¬rule.matches ("/".intercalate others) ∧
      ∀ (j : Nat) (rule' : Rule), standardRules[j]? = some rule' →
        rule'.matches ("/".intercalate names) → j = 62 := by
  intro rule names others
  have hnames : ∀ name ∈ names, Plain name := by simp [names, Plain]
  have hothers : ∀ name ∈ others, Plain name := by simp [others, Plain]
  have hmatches : rule.matches ("/".intercalate names) :=
    ((matches_iff_names hnames (List.cons_ne_nil _ _)).1 rule).mpr
      (.inr ⟨"editor/parameter", rfl, by decide +kernel⟩)
  refine ⟨hnames, hothers, hmatches, fun hother ↦ ?_, fun j rule' hj hmatches' ↦ ?_⟩
  · obtain ⟨hne, -⟩ | ⟨rest, hrest, hends⟩ :=
      ((matches_iff_names hothers (List.cons_ne_nil _ _)).1 rule).mp hother
    · exact hne "editor/parameter" rfl
    · obtain rfl : "editor/parameter" = rest := (String.append_right_inj "*/").mp hrest
      exact absurd hends (by decide +kernel)
  · exact (matches_iff_names hnames (List.cons_ne_nil _ _)).2 j 62 rule' rule hj rfl hmatches'
      hmatches

end ComponentCatalog
