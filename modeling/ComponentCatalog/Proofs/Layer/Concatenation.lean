import ComponentCatalog.Proofs.Layer.LoadFailure
import ComponentCatalog.Proofs.Layer.Places

/-!
# Reading one part after the other

**A layer is read element by element.**  The document of a component is the merge of the documents
of its children, each read by itself (`standardRules_concatenation`): an element under the root
neither sees nor disturbs what the others say.  Two facts about handlers carry this.  When a child
is read, nothing is under construction any more (`Rules.balanced_childCalls`), and no handler reads
the document (`Rule.Obeys.independent`).
-/

set_option autoImplicit false

namespace ComponentCatalog

open Xml

namespace Rules

/-- It comes to the same whether something is said before some calls or is merged in afterwards. -/
theorem run_over {calls : List Call} (h : ∀ c ∈ calls, Independent c.run) (r : Reading)
    (d : LayerDocument) : run calls (r.over d) = (·.over d) <$> run calls r := by
  induction calls generalizing r with
  | nil => rfl
  | cons c calls ih =>
    have ih := ih fun c' hc' ↦ h c' (List.mem_cons_of_mem _ hc')
    rw [run_cons, run_cons, h c List.mem_cons_self, map_bind]
    cases c.run r with
    | error f => rfl
    | ok r' => exact ih r'

end Rules

namespace StandardRules

open Rules

/-- The document of the children of a component. -/
def documentOf (children : List Element) : Except Failure LayerDocument :=
  Reading.document <$> run (childCalls standardRules rootName children) {}

theorem documentOf_eq_ok_iff {children : List Element} {d : LayerDocument} :
    documentOf children = .ok d ↔
      ∃ r, run (childCalls standardRules rootName children) {} = .ok r ∧ r.document = d := by
  rw [documentOf]
  cases run (childCalls standardRules rootName children) {} with
  | error f => exact ⟨nofun, fun ⟨_, h, _⟩ ↦ nomatch h⟩
  | ok r =>
    constructor
    · exact fun h ↦ ⟨r, rfl, Except.ok.inj h⟩
    · rintro ⟨r, hr, rfl⟩
      obtain rfl := Except.ok.inj hr
      rfl

theorem run_childCalls_over (path : String) (children : List Element) (r : Reading)
    (d : LayerDocument) :
    run (childCalls standardRules path children) (r.over d) =
      (·.over d) <$> run (childCalls standardRules path children) r := by
  refine run_over (fun c hc ↦ ?_) r d
  obtain ⟨_, _, hobeys⟩ := standardRules_obey c.rule (rule_mem_of_mem_childCalls hc)
  exact hobeys.independent c.opens c.element

/-- Once the children are read, nothing is under construction. -/
theorem frames_eq_nil {children : List Element} {r : Reading}
    (h : run (childCalls standardRules rootName children) {} = .ok r) : r.frames = [] :=
  (balanced_childCalls standardRules_nest rootName children {} r h).eq_nil

/-- No rule is for the root. -/
theorem filter_matches_rootName : standardRules.filter (·.matches rootName) = [] := by
  refine List.filter_eq_nil_iff.mpr fun rule hrule hmatches ↦ ?_
  obtain ⟨name, outer, hstands⟩ | hanywhere := standardRules_stand rule hrule
  · have hpath := hstands.pattern_eq.symm.trans ((hstands.matches_iff _).mp hmatches)
    exact childPath_ne_rootName _ _ hpath
  · have hends : IsEditorParameter (pathOf []) := isEditorParameter_of_matches hanywhere hmatches
    obtain ⟨outer, h⟩ | ⟨outer, h⟩ := hends
    · exact childPath_ne_rootName _ _ h.symm
    · exact childPath_ne_rootName _ _ h.symm

/-- Only the children of a component count. -/
theorem apply_component (attributes : NameMap String) (text : String) (children : List Element) :
    apply standardRules ⟨rootName, attributes, text, children⟩ = documentOf children := by
  rw [apply, if_pos rfl, calls_eq_foldr, filter_matches_rootName, List.foldr_nil, documentOf]
  cases h : run (childCalls standardRules rootName children) {} with
  | error f => rfl
  | ok r =>
    show r.finish = .ok r.document
    rw [Reading.finish, frames_eq_nil h]

/-- What is read after other children is merged with what those said. -/
theorem documentOf_append (first second : List Element) :
    documentOf (first ++ second) = (do
      let d ← documentOf first
      let d' ← documentOf second
      pure (d.merge d')) := by
  rw [documentOf, documentOf, documentOf, childCalls_append, run_append]
  cases hfirst : run (childCalls standardRules rootName first) {} with
  | error f => rfl
  | ok r =>
    have hr : r = ({} : Reading).over r.document := by
      rw [Reading.over, LayerDocument.merge_nothing, ← frames_eq_nil hfirst]
    have hsecond := run_childCalls_over rootName second {} r.document
    rw [← hr] at hsecond
    show Reading.document <$> run (childCalls standardRules rootName second) r = _
    rw [hsecond]
    cases run (childCalls standardRules rootName second) {} with
    | error f => rfl
    | ok r' => rfl

end StandardRules

open Rules StandardRules in
/-- **A layer is the merge of its parts.**  If the children of a component come in two lists, its
document is the merge of the documents of both; a failure is that of the first list, or else that
of the second.  So each child can be read by itself. -/
theorem standardRules_concatenation :
    (∀ (attributes attributes₁ attributes₂ : NameMap String) (text text₁ text₂ : String)
        (first second : List Element),
      apply standardRules ⟨rootName, attributes, text, first ++ second⟩ = (do
        let d ← apply standardRules ⟨rootName, attributes₁, text₁, first⟩
        let d' ← apply standardRules ⟨rootName, attributes₂, text₂, second⟩
        pure (d.merge d'))) ∧
    ∀ (attributes attributes' : NameMap String) (text text' : String) (children : List Element),
      apply standardRules ⟨rootName, attributes, text, children⟩ = (do
        let documents ← children.mapM fun child ↦
          apply standardRules ⟨rootName, attributes', text', [child]⟩
        pure (documents.foldr LayerDocument.merge {})) := by
  constructor
  · intro attributes attributes₁ attributes₂ text text₁ text₂ first second
    rw [apply_component, apply_component, apply_component, documentOf_append]
  · intro attributes attributes' text text' children
    simp only [apply_component]
    induction children with
    | nil => rfl
    | cons child children ih =>
      rw [List.mapM_cons, ← List.singleton_append, documentOf_append, ih]
      cases documentOf [child] with
      | error f => rfl
      | ok d =>
        cases children.mapM fun child ↦ documentOf [child] with
        | error f => rfl
        | ok documents => rfl

end ComponentCatalog
