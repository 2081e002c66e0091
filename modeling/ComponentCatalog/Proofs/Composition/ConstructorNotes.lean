import ComponentCatalog.Proofs.Composition.ClassModel

/-!
# What layers say of constructors

A layer declares constructors by the types of their parameters, and the description finds the one
that is meant by its signature, in which all types stand in one text.  So the parameters of a
declaration belong to those of the constructor **because signatures can be read back**
(`Signature.types_eq_of_of_eq`): from types that are not empty and have no commas, the text is made
in one way only.  Otherwise a declaration with fewer parameters could pass, and the enrichment,
which goes as far as the shorter list does, would say nothing.

A declaration enriches the first constructor with its signature and keeps the signature, so the
declarations of a layer fall to constructors by their signatures alone.  What they leave of a
constructor is an overlay of each parameter by those that are declared for its place
(`Parameter.OverlaidBy`).
-/

set_option autoImplicit false

namespace ComponentCatalog

universe u

/-! ## Signatures -/

/-- The text can stand for a type among others: it is not empty and has no comma. -/
def IsTypeName (t : String) : Prop := t ≠ "" ∧ ',' ∉ t.toList

instance (t : String) : Decidable (IsTypeName t) := instDecidableAnd

theorem split_intercalate_types {types : List String} (h : ∀ t ∈ types, IsTypeName t)
    (hne : types ≠ []) : Text.split ',' (",".intercalate types) = types :=
  Text.split_intercalate_of_not_mem (fun t ht ↦ (h t ht).2) hne

theorem intercalate_types_ne_empty {types : List String} (h : ∀ t ∈ types, IsTypeName t)
    (hne : types ≠ []) : ",".intercalate types ≠ "" := by
  intro hempty
  have hsplit := split_intercalate_types h hne
  rw [hempty] at hsplit
  have hmem : "" ∈ types := by
    rw [← hsplit]
    exact List.mem_singleton.mpr rfl
  exact (h "" hmem).1 rfl

/-- **A signature can be read back.** -/
theorem Signature.types_eq_of_of_eq {name : String} {types types' : List String}
    (h : ∀ t ∈ types, IsTypeName t) (h' : ∀ t ∈ types', IsTypeName t)
    (heq : Signature.of name types = Signature.of name types') : types = types' := by
  rw [Signature.of, Signature.of, String.append_left_inj, String.append_assoc,
    String.append_assoc, String.append_right_inj, String.append_right_inj] at heq
  by_cases hnil : types = []
  · by_cases hnil' : types' = []
    · rw [hnil, hnil']
    · rw [hnil] at heq
      exact absurd heq.symm (intercalate_types_ne_empty h' hnil')
  · by_cases hnil' : types' = []
    · rw [hnil'] at heq
      exact absurd heq (intercalate_types_ne_empty h hnil)
    · rw [← split_intercalate_types h hnil, heq, split_intercalate_types h' hnil']

/-! ## Overlaid parameters -/

namespace Parameter

variable {p q : Parameter} {declared : List Parameter}

/-- `q` is `p` overlaid with what is declared for it, in order: of what several set, the last
counts, what none sets is left alone, and flags and tags add up. -/
structure OverlaidBy (p : Parameter) (declared : List Parameter) (q : Parameter) : Prop where
  index : q.index = p.index
  typeName : q.typeName = p.typeName
  name : q.name? = (lastSome (·.name?) declared).or p.name?
  defaultSource : q.defaultSource? = (lastSome (·.defaultSource?) declared).or p.defaultSource?
  property : q.property? = (lastSome (·.property?) declared).or p.property?
  editor : q.editor? = (lastSome (·.editor?) declared).or p.editor?
  parent : q.parent = (p.parent || declared.any (·.parent))
  child : q.child = (p.child || declared.any (·.child))
  parent2 : q.parent2 = (p.parent2 || declared.any (·.parent2))
  child2 : q.child2 = (p.child2 || declared.any (·.child2))
  tags : ∀ name, q.tags.get? name =
    (lastSome (·.tags.get? name) declared).or (p.tags.get? name)

theorem OverlaidBy.nil (p : Parameter) : p.OverlaidBy [] p where
  index := rfl
  typeName := rfl
  name := rfl
  defaultSource := rfl
  property := rfl
  editor := rfl
  parent := (Bool.or_false _).symm
  child := (Bool.or_false _).symm
  parent2 := (Bool.or_false _).symm
  child2 := (Bool.or_false _).symm
  tags _ := rfl

/-- One declaration more. -/
theorem OverlaidBy.concat (h : p.OverlaidBy declared q) (a : Parameter) :
    p.OverlaidBy (declared ++ [a]) (q.enrich a) where
  index := h.index
  typeName := h.typeName
  name := by rw [lastSome_concat, Option.or_assoc, ← h.name, enrich]
  defaultSource := by rw [lastSome_concat, Option.or_assoc, ← h.defaultSource, enrich]
  property := by rw [lastSome_concat, Option.or_assoc, ← h.property, enrich]
  editor := by rw [lastSome_concat, Option.or_assoc, ← h.editor, enrich]
  parent := by rw [List.any_append, ← Bool.or_assoc, ← h.parent]; simp [enrich]
  child := by rw [List.any_append, ← Bool.or_assoc, ← h.child]; simp [enrich]
  parent2 := by rw [List.any_append, ← Bool.or_assoc, ← h.parent2]; simp [enrich]
  child2 := by rw [List.any_append, ← Bool.or_assoc, ← h.child2]; simp [enrich]
  tags name := by
    rw [lastSome_concat, Option.or_assoc, ← h.tags, enrich, NameMap.get?_overlay]

theorem overlaidBy_foldl (p : Parameter) (declared : List Parameter) :
    p.OverlaidBy declared (declared.foldl enrich p) := by
  induction declared using List.reverseRecOn with
  | nil => exact .nil p
  | append_singleton declared a ih =>
    rw [List.foldl_concat]
    exact ih.concat a

theorem getElem?_enrichEach {ps ds : List Parameter} {i : Nat} {d : Parameter}
    (hp : ps[i]? = some p) (hd : ds[i]? = some d) :
    (enrichEach ps ds)[i]? = some (p.enrich d) := by
  induction i generalizing ps ds with
  | zero =>
    obtain ⟨ps, rfl⟩ := List.head?_eq_some_iff.mp (List.head?_eq_getElem?.trans hp)
    obtain ⟨ds, rfl⟩ := List.head?_eq_some_iff.mp (List.head?_eq_getElem?.trans hd)
    rfl
  | succ i ih =>
    cases ps with
    | nil => cases hp
    | cons p' ps =>
      cases ds with
      | nil => cases hd
      | cons d' ds => exact ih hp hd

end Parameter

/-! ## Overlaid constructors -/

namespace Constructor

variable {k : Constructor} {notes : List ConstructorNote}

/-- `k'` is `k` with each parameter overlaid by those that the declarations have in its place; each
of them has one. -/
structure OverlaidBy (k : Constructor) (notes : List ConstructorNote) (k' : Constructor) :
    Prop where
  declaringClass : k'.declaringClass = k.declaringClass
  initialized : k'.initialized = k.initialized
  length : k'.parameters.length = k.parameters.length
  parameters : ∀ (i : Nat) (p : Parameter), k.parameters[i]? = some p →
    ∃ (declared : List Parameter) (q : Parameter),
      notes.map (·.parameters[i]?) = declared.map some ∧ k'.parameters[i]? = some q ∧
        p.OverlaidBy declared q

/-- The constructor with what the declarations say of it, in order. -/
def enrichAll (k : Constructor) (notes : List ConstructorNote) : Constructor :=
  notes.foldl (fun k n ↦ k.enrich n.parameters) k

theorem bare_enrichAll (k : Constructor) (notes : List ConstructorNote) :
    (k.enrichAll notes).bare = k.bare := by
  induction notes generalizing k with
  | nil => rfl
  | cons n notes ih => exact (ih (k.enrich n.parameters)).trans (k.bare_enrich n.parameters)

theorem initialized_enrichAll (k : Constructor) (notes : List ConstructorNote) :
    (k.enrichAll notes).initialized = k.initialized := by
  induction notes generalizing k with
  | nil => rfl
  | cons n notes ih => exact ih (k.enrich n.parameters)

theorem length_of_bare_eq {k k' : Constructor} (h : k'.bare = k.bare) :
    k'.parameters.length = k.parameters.length := by
  have hlength := congrArg (fun k ↦ k.parameters.length) h
  simpa only [bare, List.length_map] using hlength

theorem getElem?_enrichAll (h : ∀ n ∈ notes, n.parameters.length = k.parameters.length) {i : Nat}
    {p : Parameter} (hp : k.parameters[i]? = some p) : ∃ declared : List Parameter,
      notes.map (·.parameters[i]?) = declared.map some ∧
        (k.enrichAll notes).parameters[i]? = some (declared.foldl Parameter.enrich p) := by
  induction notes generalizing k p with
  | nil => exact ⟨[], rfl, hp⟩
  | cons n notes ih =>
    have hi : i < n.parameters.length :=
      h n List.mem_cons_self ▸ (List.getElem?_eq_some_iff.mp hp).1
    have hn : n.parameters[i]? = some n.parameters[i] := List.getElem?_eq_getElem hi
    have hlength : (k.enrich n.parameters).parameters.length = k.parameters.length :=
      length_of_bare_eq (k.bare_enrich n.parameters)
    obtain ⟨declared, hdeclared, henriched⟩ :=
      ih (fun m hm ↦ (h m (List.mem_cons_of_mem n hm)).trans hlength.symm)
        (Parameter.getElem?_enrichEach hp hn)
    refine ⟨n.parameters[i] :: declared, ?_, henriched⟩
    rw [List.map_cons, List.map_cons, hn, hdeclared]

theorem overlaidBy_enrichAll (h : ∀ n ∈ notes, n.parameters.length = k.parameters.length) :
    k.OverlaidBy notes (k.enrichAll notes) where
  declaringClass := (congrArg declaringClass (k.bare_enrichAll notes) :)
  initialized := k.initialized_enrichAll notes
  length := length_of_bare_eq (k.bare_enrichAll notes)
  parameters i p hp := by
    obtain ⟨declared, hdeclared, hq⟩ := getElem?_enrichAll h hp
    exact ⟨declared, _, hdeclared, hq, Parameter.overlaidBy_foldl p declared⟩

end Constructor

/-! ## All declarations of a layer -/

/-- Changes the first member that satisfies `which`: the one before which none does. -/
theorem getElem?_updateFirst {α : Type u} {which : α → Bool} {change : α → α} {l : List α} {i : Nat}
    {a : α} (ha : l[i]? = some a) :
    (updateFirst which change l)[i]? =
      if which a ∧ ∀ b ∈ l.take i, which b = false then some (change a) else some a := by
  induction l generalizing i with
  | nil => cases ha
  | cons b l ih =>
    cases i with
    | zero =>
      obtain rfl := Option.some.inj ha
      rw [updateFirst]
      cases which b <;> simp
    | succ i =>
      rw [updateFirst]
      cases hb : which b with
      | true => simpa [hb] using ha
      | false => simpa [hb] using ih ha

namespace ConstructorNote

variable {s : Setting} {d e : Description} {notes : List ConstructorNote}

/-- Constructors after what a layer declares of them. -/
def enrichIn (ks : List Constructor) (n : ConstructorNote) : List Constructor :=
  updateFirst (·.signature == n.signature) (·.enrich n.parameters) ks

/-- Whether or not there is such a constructor: one that there is none of changes nothing. -/
theorem apply_eq (n : ConstructorNote) (h : n.apply s d = (e, none)) :
    e = { d with constructors := enrichIn d.constructors n } := by
  rw [ConstructorNote.apply] at h
  split at h
  · exact (Prod.mk.inj h).1.symm
  · rename_i hnone
    have hfind : d.constructors.find? (·.signature == n.signature) = none := by
      simpa [Description.constructor?] using hnone
    have hsame : d = e := by
      rw [Setting.unknownMember] at h
      split at h
      · cases (Prod.mk.inj h).2
      · exact (Prod.mk.inj h).1
    rw [enrichIn, updateFirst_eq_self hfind, ← hsame]

theorem each_apply_eq (h : Change.each notes (·.apply s) d = (e, none)) :
    e = { d with constructors := notes.foldl enrichIn d.constructors } := by
  induction notes generalizing d with
  | nil => exact (Prod.mk.inj h).1.symm
  | cons n notes ih =>
    obtain ⟨m, hm, h⟩ := Change.andThen_eq_none_iff.mp h
    obtain rfl := n.apply_eq hm
    exact ih h

theorem signature_enrich (k : Constructor) (declared : List Parameter) :
    (k.enrich declared).signature = k.signature := by
  rw [← Constructor.signature_bare, Constructor.bare_enrich, Constructor.signature_bare]

/-- Declarations keep all signatures, so also which constructor is the first one with its own. -/
theorem first_enrichIn_iff (ks : List Constructor) (n : ConstructorNote) (i : Nat)
    (signature : String) :
    (∀ k ∈ (enrichIn ks n).take i, k.signature ≠ signature) ↔
      ∀ k ∈ ks.take i, k.signature ≠ signature := by
  have hsignatures :
      ((enrichIn ks n).take i).map (·.signature) = (ks.take i).map (·.signature) := by
    rw [List.map_take, List.map_take, enrichIn,
      map_updateFirst (fun k ↦ signature_enrich k n.parameters)]
  rw [← List.forall_mem_map (P := (· ≠ signature)), hsignatures, List.forall_mem_map]

theorem getElem?_enrichIn {ks : List Constructor} {i : Nat} {k : Constructor}
    (hk : ks[i]? = some k) (n : ConstructorNote) :
    (enrichIn ks n)[i]? =
      if (∀ k' ∈ ks.take i, k'.signature ≠ k.signature) ∧ n.signature = k.signature then
        some (k.enrich n.parameters)
      else some k := by
  rw [enrichIn, getElem?_updateFirst hk]
  refine if_congr ?_ rfl rfl
  rw [beq_iff_eq, and_comm]
  constructor
  · rintro ⟨hfirst, hn⟩
    exact ⟨fun k' hk' ↦ hn ▸ beq_eq_false_iff_ne.mp (hfirst k' hk'), hn.symm⟩
  · rintro ⟨hfirst, hn⟩
    exact ⟨fun k' hk' ↦ hn ▸ beq_eq_false_iff_ne.mpr (hfirst k' hk'), hn.symm⟩

/-- What declarations make of the constructor at one place. -/
theorem getElem?_foldl_enrichIn (notes : List ConstructorNote) {ks : List Constructor} {i : Nat}
    {k : Constructor} (hk : ks[i]? = some k) :
    (notes.foldl enrichIn ks)[i]? =
      if ∀ k' ∈ ks.take i, k'.signature ≠ k.signature then
        some (k.enrichAll (notes.filter (·.signature == k.signature)))
      else some k := by
  induction notes generalizing ks k with
  | nil => simpa [Constructor.enrichAll] using hk
  | cons n notes ih =>
    have hn := getElem?_enrichIn hk n
    by_cases hfirst : ∀ k' ∈ ks.take i, k'.signature ≠ k.signature
    · by_cases heq : n.signature = k.signature
      · rw [if_pos ⟨hfirst, heq⟩] at hn
        have hrest := ih hn
        rw [signature_enrich, if_pos ((first_enrichIn_iff ks n i _).mpr hfirst)] at hrest
        rw [if_pos hfirst, List.filter_cons, if_pos (beq_iff_eq.mpr heq), List.foldl_cons, hrest]
        rfl
      · rw [if_neg fun h ↦ heq h.2] at hn
        have hrest := ih hn
        rw [if_pos ((first_enrichIn_iff ks n i _).mpr hfirst)] at hrest
        rw [if_pos hfirst, List.filter_cons, if_neg fun h ↦ heq (beq_iff_eq.mp h),
          List.foldl_cons, hrest]
    · rw [if_neg fun h ↦ hfirst h.1] at hn
      have hrest := ih hn
      rw [if_neg fun h ↦ hfirst ((first_enrichIn_iff ks n i _).mp h)] at hrest
      rw [if_neg hfirst, List.foldl_cons, hrest]

theorem length_foldl_enrichIn (notes : List ConstructorNote) (ks : List Constructor) :
    (notes.foldl enrichIn ks).length = ks.length := by
  induction notes generalizing ks with
  | nil => rfl
  | cons n notes ih =>
    have hstep : (enrichIn ks n).length = ks.length := by
      have hsignatures := map_updateFirst (fun k ↦ signature_enrich k n.parameters)
        (·.signature == n.signature) ks
      simpa only [enrichIn, List.length_map] using congrArg List.length hsignatures
    rw [List.foldl_cons, ih, hstep]

end ConstructorNote

/-! ## Descriptions whose types can stand in signatures -/

/-- The types of the parameters. -/
def Constructor.parameterTypes (k : Constructor) : List String := k.parameters.map (·.typeName)

theorem Constructor.parameterTypes_bare (k : Constructor) :
    k.bare.parameterTypes = k.parameterTypes := by
  rw [parameterTypes, bare, List.map_map]
  rfl

theorem Constructor.parameterTypes_enrich (k : Constructor) (declared : List Parameter) :
    (k.enrich declared).parameterTypes = k.parameterTypes := by
  rw [← parameterTypes_bare, bare_enrich, parameterTypes_bare]

/-- The types of the parameters that a layer declares can stand in signatures. -/
def LayerDocument.NamesTypes (layer : LayerDocument) : Prop :=
  ∀ n ∈ layer.constructors, ∀ t ∈ n.parameterTypes, IsTypeName t

instance (layer : LayerDocument) : Decidable layer.NamesTypes :=
  inferInstanceAs (Decidable (∀ n ∈ layer.constructors, ∀ t ∈ n.parameterTypes, IsTypeName t))

namespace Description

/-- The types of the parameters of constructors can stand in signatures. -/
def NamesTypes (d : Description) : Prop :=
  ∀ k ∈ d.constructors, ∀ t ∈ k.parameterTypes, IsTypeName t

variable {d e : Description}

theorem NamesTypes.congr (hd : d.NamesTypes)
    (h : e.constructors.map (·.parameterTypes) = d.constructors.map (·.parameterTypes)) :
    e.NamesTypes := by
  have htypes : ∀ types ∈ d.constructors.map (·.parameterTypes), ∀ t ∈ types, IsTypeName t :=
    List.forall_mem_map.mpr hd
  rw [← h] at htypes
  exact List.forall_mem_map.mp htypes

theorem invariant_namesTypes : Invariant (fun _ ↦ True) NamesTypes where
  member _ d e hstep hd := by
    cases hstep with
    | constructor n =>
      exact hd.congr (map_updateFirst (·.parameterTypes_enrich n.parameters) _ _)
    | property p => exact hd
    | override o => exact hd
    | newMethod className m hdecl hnew => exact hd
    | annotate n => exact hd
    | order signature order => exact hd
    | exclude pattern => exact hd
  frame hsame hd := hd.congr (congrArg (List.map _) hsame.constructors)
  property step hd := by
    cases step with
    | add p => exact hd
    | configure o => exact hd
  join hd := hd

/-- So have those of every description of a class whose constructors are declared so. -/
theorem namesTypes_after {c : ClassDecl}
    (h : ∀ k ∈ c.constructors, ∀ t ∈ k.parameterTypes, IsTypeName t) (key : Key)
    (steps : List CompositionStep) : ((ofClass key c).after steps).NamesTypes := by
  refine invariant_namesTypes.after ?_ fun _ _ _ _ ↦ trivial
  refine List.forall_mem_map.mpr fun k hk ↦ ?_
  rw [Constructor.parameterTypes, Constructor.ofTypes, Parameter.ofTypes,
    Parameter.map_typeName_ofTypesFrom]
  exact h k hk

theorem NamesTypes.types_eq {layer : LayerDocument} (hd : d.NamesTypes)
    (hlayer : layer.NamesTypes) {n : ConstructorNote} {k : Constructor}
    (hn : n ∈ layer.constructors) (hk : k ∈ d.constructors) (h : n.signature = k.signature) :
    n.parameterTypes = k.parameterTypes :=
  Signature.types_eq_of_of_eq (hlayer n hn) (hd k hk) h

end Description

/-- What declarations make of constructors. -/
structure ConstructorsEnriched (notes : List ConstructorNote) (ks ks' : List Constructor) : Prop
    where
  length : ks'.length = ks.length
  /-- A declaration has the types of the constructor that it is for. -/
  types : ∀ n ∈ notes, ∀ k, ks.find? (·.signature == n.signature) = some k →
    n.parameterTypes = k.parameterTypes
  /-- The first constructor with its signature gets all that is declared for it. -/
  first : ∀ (i : Nat) (k : Constructor), ks[i]? = some k →
    (∀ k' ∈ ks.take i, k'.signature ≠ k.signature) →
      ∃ k', ks'[i]? = some k' ∧ k.OverlaidBy (notes.filter (·.signature == k.signature)) k'
  /-- One that comes after another one with its signature gets nothing. -/
  later : ∀ (i : Nat) (k : Constructor), ks[i]? = some k →
    (∃ k' ∈ ks.take i, k'.signature = k.signature) → ks'[i]? = some k
  /-- Nor does one that nothing is declared for. -/
  unnamed : ∀ (i : Nat) (k : Constructor), ks[i]? = some k →
    (∀ n ∈ notes, n.signature ≠ k.signature) → ks'[i]? = some k

namespace LayerDocument

/-- **Declarations meet the parameters they are for.**  Where all types can stand in signatures, a
declaration that finds a constructor has its types, place by place.  The first constructor with a
signature has each parameter overlaid by those in its place in all declarations with the signature,
in their order; all other constructors stay as they were, and so does the rest of the
description. -/
theorem constructors_of_applyConstructors {s : Setting} {layer : LayerDocument}
    {d e : Description} (hd : d.NamesTypes) (hlayer : layer.NamesTypes)
    (h : layer.applyConstructors s d = (e, none)) :
    ConstructorsEnriched layer.constructors d.constructors e.constructors ∧
      e = { d with constructors := e.constructors } := by
  have he := ConstructorNote.each_apply_eq h
  have hconstructors : e.constructors = layer.constructors.foldl ConstructorNote.enrichIn
      d.constructors := congrArg Description.constructors he
  refine ⟨?_, by rw [hconstructors]; exact he⟩
  rw [hconstructors]
  constructor
  · exact ConstructorNote.length_foldl_enrichIn _ _
  · intro n hn k hfind
    have hsignature : k.signature = n.signature := by simpa using List.find?_some hfind
    exact hd.types_eq hlayer hn (List.mem_of_find?_eq_some hfind) hsignature.symm
  · intro i k hk hfirst
    refine ⟨_, (ConstructorNote.getElem?_foldl_enrichIn _ hk).trans (if_pos hfirst), ?_⟩
    refine Constructor.overlaidBy_enrichAll fun n hn ↦ ?_
    obtain ⟨hn, hsignature⟩ := List.mem_filter.mp hn
    have htypes := hd.types_eq hlayer hn (List.mem_of_getElem? hk) (beq_iff_eq.mp hsignature)
    simpa [ConstructorNote.parameterTypes, Constructor.parameterTypes] using
      congrArg List.length htypes
  · rintro i k hk ⟨k', hk', hsignature⟩
    refine (ConstructorNote.getElem?_foldl_enrichIn _ hk).trans (if_neg fun hfirst ↦ ?_)
    exact hfirst k' hk' hsignature
  · intro i k hk hnone
    have hfilter : layer.constructors.filter (·.signature == k.signature) = [] := by
      refine List.filter_eq_nil_iff.mpr fun n hn heq ↦ ?_
      exact hnone n hn (beq_iff_eq.mp heq)
    rw [ConstructorNote.getElem?_foldl_enrichIn _ hk, hfilter]
    exact ite_self _

/-! A spinner with two constructors, one of which a layer declares twice.  Both declarations name
its first parameter. -/

def spinnerClass : ClassDecl :=
  { name := "a.Spinner"
    constructors := [{ parameterTypes := ["int"] }, { parameterTypes := ["int", "String"] }] }

def spinnerFirst : List Parameter :=
  [{ index := 0, typeName := "int", name? := some "min", child := true },
    { index := 0, typeName := "int", name? := some "lower" }]

def spinnerSecond : List Parameter :=
  [{ index := 1, typeName := "String", defaultSource? := some "null" },
    { index := 1, typeName := "String" }]

def spinnerLayer : LayerDocument :=
  { constructors := List.zipWith (fun p q ↦ { parameters := [p, q] }) spinnerFirst spinnerSecond }

def spinnerSetting : Setting :=
  { hierarchy := [spinnerClass]
    classPath := .root
    locator := ⟨fun _ ↦ none, fun _ _ ↦ false⟩
    strictMembers := true }

def spinnerDescription : Description :=
  (Description.ofClass (.pure "a.Spinner") spinnerClass).after [.finish "java.lang.Object"]

theorem constructors_of_applyConstructors_spinner : ∃ e,
    spinnerLayer.applyConstructors spinnerSetting spinnerDescription = (e, none) ∧
      e.constructors[0]? = spinnerDescription.constructors[0]? ∧
      ∃ k p q, e.constructors[1]? = some k ∧ k.parameters[0]? = some p ∧
        k.parameters[1]? = some q ∧ p.name? = some "lower" ∧ p.child = true ∧
        q.defaultSource? = some "null" := by
  have happly : spinnerLayer.applyConstructors spinnerSetting spinnerDescription =
      ((spinnerLayer.applyConstructors spinnerSetting spinnerDescription).1, none) :=
    Prod.ext rfl (by decide +kernel)
  have hd : spinnerDescription.NamesTypes := Description.namesTypes_after (by decide +kernel) _ _
  obtain ⟨henriched, -⟩ := constructors_of_applyConstructors hd (by decide +kernel) happly
  refine ⟨_, happly, ?_, ?_⟩
  · exact henriched.unnamed 0 (.ofTypes "a.Spinner" ["int"]) rfl (by decide +kernel)
  · obtain ⟨k, hk, hoverlaid⟩ := henriched.first 1 (.ofTypes "a.Spinner" ["int", "String"]) rfl
      (by decide +kernel)
    have hnotes : spinnerLayer.constructors.filter (·.signature ==
        (Constructor.ofTypes "a.Spinner" ["int", "String"]).signature) =
          spinnerLayer.constructors := by
      decide +kernel
    rw [hnotes] at hoverlaid
    have hsome : ∀ {ps qs : List Parameter}, ps.map some = qs.map some → ps = qs :=
      fun h ↦ List.map_injective_iff.mpr (fun _ _ ↦ Option.some.inj) h
    obtain ⟨declared, p, hdeclared, hp, hfirst⟩ := hoverlaid.parameters 0 _ rfl
    obtain rfl : spinnerFirst = declared := hsome hdeclared
    obtain ⟨declared, q, hdeclared, hq, hsecond⟩ := hoverlaid.parameters 1 _ rfl
    obtain rfl : spinnerSecond = declared := hsome hdeclared
    exact ⟨k, p, q, hk, hp, hq, hfirst.name, hfirst.child, hsecond.defaultSource⟩

end LayerDocument

end ComponentCatalog
