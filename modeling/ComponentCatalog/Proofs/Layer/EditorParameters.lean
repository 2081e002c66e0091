import ComponentCatalog.Proofs.Layer.Transparency

/-!
# Parameters of editors

Elements for parameters of editors are read wherever they are, and give the innermost part under
construction a parameter.  Where no other rule is for an element or for those in it (`Unruled`),
**reading the element comes to its editor parameters** (`StandardRules.reads_calls`): those of the
elements in it at any depth, in document order (`Xml.Element.editorParameters`).  The induction is
on the element and speaks of any innermost frame, which the parameters change one after the other.
So an editor gets them all, and in a part that can have none there are none.
-/

set_option autoImplicit false

namespace ComponentCatalog

open Xml

/-! ## What is read of elements -/

namespace Xml.Element

theorem required_eq_ok_iff {e : Element} {name value : String} :
    e.required name = .ok value ↔ e.attribute? name = some value := by
  rw [required]
  cases e.attribute? name with
  | none => simp only [reduceCtorEq]
  | some value' => rw [Except.ok.injEq, Option.some.injEq]

/-- Whether an element in one of the name `parent` is for a parameter of an editor. -/
def IsParameterIn (parent : String) (e : Element) : Prop :=
  parent = "editor" ∧ (e.name = "parameter" ∨ e.name = "parameter-list")

instance (parent : String) (e : Element) : Decidable (e.IsParameterIn parent) :=
  inferInstanceAs (Decidable (_ ∧ _))

mutual

/-- The elements for parameters of editors among an element, in one of the name `parent`, and all
elements in it; in document order. -/
def editorParameters (parent : String) : Element → List Element
  | ⟨name, attributes, text, children⟩ =>
    let e := ⟨name, attributes, text, children⟩
    (if e.IsParameterIn parent then [e] else []) ++ childParameters name children

/-- The elements for parameters of editors among the children of an element of the name `parent` and
all elements in them. -/
def childParameters (parent : String) : List Element → List Element
  | [] => []
  | child :: rest => editorParameters parent child ++ childParameters parent rest

end

end Xml.Element

/-- Editor parameters with one more, which an element gives: a value, or an item of a list. -/
def EditorParameters.read (p : EditorParameters) (e : Element) : EditorParameters :=
  match e.attribute? "name" with
  | none => p
  | some name =>
    if e.name = "parameter" then p.setValue name e.trimmedText else p.addItem name e.trimmedText

/-- The editor that the element is. -/
def Xml.Element.editor? (e : Element) : Option Editor :=
  (e.attribute? "id").map fun id ↦
    { id, parameters := (childParameters e.name e.children).foldl EditorParameters.read {} }

/-! ## Rules that match -/

namespace StandardRules

/-- No rule stands at the place or further inside. -/
def Unruled (names : List String) : Prop :=
  ∀ inner, ∀ rule ∈ standardRules, ¬rule.StandsAt (inner ++ names)

theorem Unruled.cons {names : List String} (h : Unruled names) (name : String) :
    Unruled (name :: names) := by
  intro inner rule hrule hstands
  refine h (inner ++ [name]) rule hrule ?_
  rwa [List.append_assoc]

variable {rule : Rule} {name parent : String} {outer : List String}

/-- A rule for parameters of editors wherever they are matches the elements with the two names. -/
theorem patternMatches_editor_iff (hnames : ∀ n ∈ name :: parent :: outer, Plain n) (kind : String)
    (hkind : Plain kind) :
    Rule.patternMatches ("*/" ++ ("editor/" ++ kind)) (pathOf (name :: parent :: outer)) ↔
      parent = "editor" ∧ name = kind := by
  have hother : pathOf (name :: parent :: outer) ≠ "editor/" ++ kind :=
    pathOf_ne_of_head? (by simp)
  rw [patternMatches_anywhere, or_iff_right hother, endsIn_editor_iff hnames kind hkind]
  constructor
  · rintro ⟨_, heq⟩
    cases heq
    exact ⟨rfl, rfl⟩
  · rintro ⟨rfl, rfl⟩
    exact ⟨outer, rfl⟩

/-- Where no rule stands, a rule matches an element if both are for parameters of editors. -/
theorem matches_iff_of_unruled (hnames : ∀ n ∈ name :: parent :: outer, Plain n)
    (h : Unruled (name :: parent :: outer)) (hrule : rule ∈ standardRules) :
    rule.matches (pathOf (name :: parent :: outer)) ↔
      parent = "editor" ∧ (rule.pattern = "*/editor/parameter" ∧ name = "parameter" ∨
        rule.pattern = "*/editor/parameter-list" ∧ name = "parameter-list") := by
  obtain ⟨_, _, hstands⟩ | hanywhere := standardRules_stand rule hrule
  · have hnot : ¬rule.matches (pathOf (name :: parent :: outer)) := by
      intro hmatches
      have hpath := hstands.pattern_eq.symm.trans ((hstands.matches_iff _).mp hmatches)
      have heq := pathOf_injective hstands.plain hnames hpath
      exact h [] rule hrule (heq ▸ hstands)
    have hpattern : ∀ rule' ∈ anywhereRules, rule.pattern ≠ rule'.pattern := by
      intro rule' hrule'
      rw [hstands.pattern_eq]
      exact pattern_ne_of_mem_anywhereRules hrule'
    have hvalue : rule.pattern ≠ "*/editor/parameter" := hpattern _ (.head _)
    have hitem : rule.pattern ≠ "*/editor/parameter-list" := hpattern _ (.tail _ (.head _))
    refine iff_of_false hnot ?_
    rintro ⟨-, ⟨h, -⟩ | ⟨h, -⟩⟩
    · exact hvalue h
    · exact hitem h
  · obtain rfl | rfl : rule = _ ∨ rule = _ := by simpa [anywhereRules] using hanywhere
    · have hiff := patternMatches_editor_iff hnames "parameter" (by decide)
      exact hiff.trans (by simp [editorValue])
    · have hiff := patternMatches_editor_iff hnames "parameter-list" (by decide)
      exact hiff.trans (by simp [editorItem])

/-- Where no rule stands, one rule matches the elements for parameters of editors, and none matches
others. -/
theorem filter_matches_unruled (hnames : ∀ n ∈ name :: parent :: outer, Plain n)
    (h : Unruled (name :: parent :: outer)) :
    standardRules.filter (·.matches (pathOf (name :: parent :: outer))) =
      if parent = "editor" ∧ name = "parameter" then [editorValue "*/editor/parameter"]
      else if parent = "editor" ∧ name = "parameter-list" then
        [editorItem "*/editor/parameter-list"]
      else [] := by
  have hmatches : ∀ rule ∈ standardRules,
      rule.matches (pathOf (name :: parent :: outer)) = decide (parent = "editor" ∧
        (rule.pattern = "*/editor/parameter" ∧ name = "parameter" ∨
          rule.pattern = "*/editor/parameter-list" ∧ name = "parameter-list")) := by
    intro rule hrule
    rw [Bool.eq_iff_iff, decide_eq_true_iff, matches_iff_of_unruled hnames h hrule]
  rw [List.filter_congr hmatches]
  by_cases hvalue : parent = "editor" ∧ name = "parameter"
  · obtain ⟨rfl, rfl⟩ := hvalue
    simp only [and_true, String.reduceEq, and_false, or_false]
    rfl
  · by_cases hitem : parent = "editor" ∧ name = "parameter-list"
    · obtain ⟨rfl, rfl⟩ := hitem
      simp only [and_true, String.reduceEq, and_false, false_or]
      rfl
    · rw [if_neg hvalue, if_neg hitem]
      refine List.filter_eq_nil_iff.mpr fun rule _ hmatching ↦ ?_
      obtain ⟨hparent, ⟨-, hname⟩ | ⟨-, hname⟩⟩ := decide_eq_true_iff.mp hmatching
      · exact hvalue ⟨hparent, hname⟩
      · exact hitem ⟨hparent, hname⟩

end StandardRules

/-! ## Reading parameters -/

/-- The frame with one more parameter, which an element gives, if it can have such. -/
def Frame.readParameter? (frame : Frame) (e : Element) : Option Frame :=
  match frame with
  | .editor ed => some (.editor { ed with parameters := ed.parameters.read e })
  | .configurableProperty p =>
    some (.configurableProperty { p with parameters := p.parameters.read e })
  | _ => none

/-- From the first state to the second, elements give the innermost frame parameters, and nothing
else changes. -/
def ReadsParameters (parameters : List Element) (r r' : Reading) : Prop :=
  ∀ frame rest, r.frames = frame :: rest →
    ∃ frame', parameters.foldlM Frame.readParameter? frame = some frame' ∧
      r' = { r with frames := frame' :: rest }

namespace ReadsParameters

variable {ps qs : List Element} {r m r' : Reading}

theorem nil (r : Reading) : ReadsParameters [] r r := by
  intro frame rest hframes
  exact ⟨frame, rfl, by rw [← hframes]⟩

theorem append (h : ReadsParameters ps r m) (h' : ReadsParameters qs m r') :
    ReadsParameters (ps ++ qs) r r' := by
  intro frame rest hframes
  obtain ⟨between, hbetween, rfl⟩ := h frame rest hframes
  obtain ⟨frame', hframe', rfl⟩ := h' between rest rfl
  refine ⟨frame', ?_, rfl⟩
  rw [List.foldlM_append, hbetween]
  exact hframe'

theorem foldlM_readParameter? (ps : List Element) (ed : Editor) :
    ps.foldlM Frame.readParameter? (.editor ed) =
      some (.editor { ed with parameters := ps.foldl EditorParameters.read ed.parameters }) := by
  induction ps generalizing ed with
  | nil => rfl
  | cons e ps ih => exact ih { ed with parameters := ed.parameters.read e }

/-- An editor gets the parameters in order. -/
theorem eq_of_editor {ed : Editor} {rest : List Frame} (h : ReadsParameters ps r r')
    (hframes : r.frames = .editor ed :: rest) :
    r' = { r with
      frames := .editor { ed with parameters := ps.foldl EditorParameters.read ed.parameters } ::
        rest } := by
  obtain ⟨frame', hframe', rfl⟩ := h _ rest hframes
  rw [foldlM_readParameter?] at hframe'
  rw [Option.some.inj hframe']

/-- A method property can have no parameters, so there are none. -/
theorem eq_of_methodProperty {p : MethodProperty} {rest : List Frame} (h : ReadsParameters ps r r')
    (hframes : r.frames = .methodProperty p :: rest) : r' = r := by
  obtain ⟨frame', hframe', rfl⟩ := h _ rest hframes
  cases ps with
  | nil =>
    obtain rfl := Option.some.inj hframe'
    rw [← hframes]
  | cons e ps => exact absurd hframe' (Option.some_ne_none frame').symm

end ReadsParameters

namespace StandardRules

open Rules

variable {e : Element} {parent : String} {outer : List String} {r : Reading}

theorem editEditorParameters_reads {change : EditorParameters → EditorParameters}
    (h : ∀ p, p.read e = change p) :
    SucceedsIn (ReadsParameters [e] r) (editEditorParameters e r change) := by
  intro r' hr' frame rest hframes
  rw [editEditorParameters, Reading.editTop, hframes] at hr'
  cases frame with
  | editor | configurableProperty =>
    obtain rfl := Except.ok.inj hr'
    refine ⟨_, rfl, ?_⟩
    rw [h]
  | _ => cases hr'

theorem editorValue_reads {pattern : String} (hname : e.name = "parameter") :
    SucceedsIn (ReadsParameters [e] r) ((editorValue pattern).onOpen e r) := by
  refine succeedsIn_bind_iff.mpr fun name hrequired ↦ editEditorParameters_reads fun p ↦ ?_
  rw [EditorParameters.read, Element.required_eq_ok_iff.mp hrequired]
  exact if_pos hname

theorem editorItem_reads {pattern : String} (hname : e.name = "parameter-list") :
    SucceedsIn (ReadsParameters [e] r) ((editorItem pattern).onOpen e r) := by
  refine succeedsIn_bind_iff.mpr fun name hrequired ↦ editEditorParameters_reads fun p ↦ ?_
  rw [EditorParameters.read, Element.required_eq_ok_iff.mp hrequired]
  exact if_neg (by rw [hname]; decide)

/-- One rule for an element around what is read inside. -/
theorem reads_enclose {rule : Rule} {ps : List Element} {inner : List Call}
    (hopen : SucceedsIn (ReadsParameters [e] r) (rule.onOpen e r))
    (hclose : ∀ m, rule.onClose e m = .ok m)
    (hinner : ∀ m, SucceedsIn (ReadsParameters ps m) (run inner m)) :
    SucceedsIn (ReadsParameters (e :: ps) r) (run (enclose e rule inner) r) := by
  rw [run_enclose]
  refine succeedsIn_bind_iff.mpr fun m hm ↦ succeedsIn_bind_iff.mpr fun m' hm' ↦ ?_
  rw [hclose, succeedsIn_ok]
  exact (hopen m hm).append (hinner m m' hm')

mutual

/-- **Where no rule stands**, reading an element gives the innermost frame the parameters of editors
in it. -/
theorem reads_calls : ∀ (e : Element) {parent : String} {outer : List String},
    (∀ n ∈ e.name :: parent :: outer, Plain n) → (∀ child ∈ e.children, child.Plain) →
      Unruled (e.name :: parent :: outer) → ∀ r : Reading,
        SucceedsIn (ReadsParameters (e.editorParameters parent) r)
          (run (calls standardRules (pathOf (e.name :: parent :: outer)) e) r)
  | ⟨name, attributes, text, children⟩, parent, outer, hnames, hchildren, h, r => by
    -- No rule stands further inside either, so at most one rule reads this element, and it does so
    -- around the rest.
    have hinner := reads_childCalls children hnames hchildren fun name' ↦ h.cons name'
    rw [calls_eq_foldr, filter_matches_unruled hnames h, Element.editorParameters]
    by_cases hvalue : parent = "editor" ∧ name = "parameter"
    · rw [if_pos hvalue, if_pos ⟨hvalue.1, .inl hvalue.2⟩]
      exact reads_enclose (editorValue_reads hvalue.2) (fun _ ↦ rfl) hinner
    · by_cases hitem : parent = "editor" ∧ name = "parameter-list"
      · rw [if_neg hvalue, if_pos hitem, if_pos ⟨hitem.1, .inr hitem.2⟩]
        exact reads_enclose (editorItem_reads hitem.2) (fun _ ↦ rfl) hinner
      · have hother : ¬Element.IsParameterIn parent ⟨name, attributes, text, children⟩ := by
          rintro ⟨hparent, hname | hname⟩
          · exact hvalue ⟨hparent, hname⟩
          · exact hitem ⟨hparent, hname⟩
        rw [if_neg hvalue, if_neg hitem, if_neg hother]
        exact hinner r

theorem reads_childCalls : ∀ (children : List Element) {parent : String} {outer : List String},
    (∀ n ∈ parent :: outer, Plain n) → (∀ child ∈ children, child.Plain) →
      (∀ name, Unruled (name :: parent :: outer)) → ∀ r : Reading,
        SucceedsIn (ReadsParameters (Element.childParameters parent children) r)
          (run (childCalls standardRules (pathOf (parent :: outer)) children) r)
  | [], _, _, _, _, _, r => by
    rw [childCalls, run_nil, succeedsIn_ok, Element.childParameters]
    exact .nil r
  | child :: rest, parent, outer, hnames, hplain, h, r => by
    rw [List.forall_mem_cons, Element.plain_iff] at hplain
    obtain ⟨⟨hname, hchild⟩, hrest⟩ := hplain
    rw [childCalls, run_append, Element.childParameters]
    refine succeedsIn_bind_iff.mpr fun m hm ↦ ?_
    have hfirst := reads_calls child (List.forall_mem_cons.mpr ⟨hname, hnames⟩) hchild (h _) r m hm
    exact (reads_childCalls rest hnames hrest h m).mono fun r' hr' ↦ hfirst.append hr'

end

end StandardRules

end ComponentCatalog
