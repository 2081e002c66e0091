import ComponentCatalog.Proofs.ClassModel.MethodLookup
import ComponentCatalog.Proofs.Composition.ClassModel

/-!
# Which methods a layer leaves

A layer speaks of methods in three ways, one after the other: notes on single methods, operations
that include or exclude all methods that a pattern matches, and orders of single methods.  Of a
method that the hierarchy has, **the last operation decides** that matches it, unless the layer gives
it an order (`LayerDocument.methods_of_applyMethods`).

The layer adds methods at the end and nowhere else, so the methods that it does not exclude stay in
their places, and those that it does not name either stay as they are.  `Description.MethodsKept`
says so of any change, and such changes can be put one after the other.
-/

set_option autoImplicit false

namespace ComponentCatalog

universe u

/-! ## Methods by signature -/

namespace Description

variable {d : Description} {signature : String}

theorem method?_isSome_iff :
    (d.method? signature).isSome ↔ ∃ m ∈ d.methods, m.signature = signature := by
  simp [method?, List.find?_isSome]

theorem method?_addMethod (m : Method) :
    (d.addMethod m).method? signature =
      (d.method? signature).or (if m.signature = signature then some m else none) := by
  rw [method?, addMethod, List.find?_append, method?, List.find?_cons, List.find?_nil]
  by_cases h : m.signature = signature
  · simp [h]
  · have hbeq : (m.signature == signature) = false := by simpa using h
    simp [hbeq, h]

/-- A change of one method does not show in another one. -/
theorem method?_updateMethod_of_ne {signature' : String} {change : Method → Method}
    (hchange : ∀ m, (change m).signature = m.signature) (hne : signature' ≠ signature) :
    (d.updateMethod signature' change).method? signature = d.method? signature := by
  refine find?_updateFirst (fun m ↦ by rw [hchange]) fun m _ hm ↦ ?_
  have hsignature : m.signature = signature' := by simpa using hm
  simpa [hsignature] using hne

theorem method?_isSome_updateMethod {signature' : String} {change : Method → Method}
    (hchange : ∀ m, (change m).signature = m.signature) :
    ((d.updateMethod signature' change).method? signature).isSome =
      (d.method? signature).isSome := by
  have hmap : (d.updateMethod signature' change).methods.map (·.signature) =
      d.methods.map (·.signature) := map_updateFirst hchange _ _
  have hmem : ∀ e : Description,
      (e.method? signature).isSome ↔ signature ∈ e.methods.map (·.signature) := fun e ↦
    method?_isSome_iff.trans List.mem_map.symm
  rw [Bool.eq_iff_iff, hmem, hmem, hmap]

theorem method?_filter (keep : String → Bool) (h : keep signature) :
    ({ d with methods := d.methods.filter fun m ↦ keep m.signature } : Description).method?
      signature = d.method? signature := by
  rw [method?, List.find?_filter, method?]
  refine congrArg (d.methods.find? ·) (funext fun m ↦ ?_)
  by_cases hm : m.signature = signature
  · simp [hm, h]
  · simp [hm]

/-! ## Methods that are kept -/

/-- The methods without what metadata says of them. -/
def bareMethods (d : Description) : List Method := d.methods.map (·.bare)

/-- From `d` to `e` no methods are lost but those of excluded signatures and no others come but at
the end, and those that are neither excluded nor named stay as they are. -/
structure MethodsKept (excluded : String → Bool) (named : String → Prop) (d e : Description) :
    Prop where
  places : ∃ added, e.bareMethods = d.bareMethods.filter (!excluded ·.signature) ++ added
  same : ∀ signature, excluded signature = false → ¬named signature →
    (d.method? signature).isSome → e.method? signature = d.method? signature

namespace MethodsKept

variable {excluded excluded' : String → Bool} {named named' : String → Prop} {d m e : Description}

theorem of_methods_eq (h : e.methods = d.methods) (named : String → Prop) :
    MethodsKept (fun _ ↦ false) named d e where
  places := ⟨[], by simp [bareMethods, h]⟩
  same signature _ _ _ := by rw [method?, h, method?]

theorem trans (h : MethodsKept excluded named d m) (h' : MethodsKept excluded' named' m e) :
    MethodsKept (fun signature ↦ excluded signature || excluded' signature)
      (fun signature ↦ named signature ∨ named' signature) d e where
  places := by
    obtain ⟨added, hm⟩ := h.places
    obtain ⟨added', he⟩ := h'.places
    refine ⟨added.filter (!excluded' ·.signature) ++ added', ?_⟩
    rw [he, hm, List.filter_append, List.filter_filter, List.append_assoc]
    simp only [Bool.not_or, Bool.and_comm]
  same signature hexcluded hnamed hd := by
    obtain ⟨hexcluded, hexcluded'⟩ := Bool.or_eq_false_iff.mp hexcluded
    obtain ⟨hnamed, hnamed'⟩ := not_or.mp hnamed
    have hsame := h.same signature hexcluded hnamed hd
    rw [h'.same signature hexcluded' hnamed' (hsame ▸ hd), hsame]

theorem congr (h : MethodsKept excluded named d e)
    (hexcluded : ∀ signature, excluded' signature = excluded signature)
    (hnamed : ∀ signature, named signature → named' signature) :
    MethodsKept excluded' named' d e where
  places := by
    obtain rfl : excluded' = excluded := funext hexcluded
    exact h.places
  same signature hnot hnot' :=
    h.same signature (hexcluded signature ▸ hnot) (mt (hnamed signature) hnot')

/-- A method at the end is in no one's way. -/
theorem addMethod (new : Method) : MethodsKept (fun _ ↦ false) (fun _ ↦ False) d (d.addMethod new)
    where
  places := ⟨[new.bare], by simp [bareMethods, Description.addMethod]⟩
  same signature _ _ hd := by
    obtain ⟨old, hold⟩ := Option.isSome_iff_exists.mp hd
    rw [method?_addMethod, hold]
    rfl

theorem updateMethod {change : Method → Method} (hchange : ∀ m, (change m).bare = m.bare)
    (signature : String) :
    MethodsKept (fun _ ↦ false) (· = signature) d (d.updateMethod signature change) where
  places := by
    refine ⟨[], ?_⟩
    have hbare : (d.updateMethod signature change).bareMethods = d.bareMethods :=
      map_updateFirst hchange _ _
    simp [hbare]
  same signature' _ hne _ := by
    refine method?_updateMethod_of_ne (fun m ↦ ?_) (Ne.symm hne)
    rw [← Method.signature_bare, hchange, Method.signature_bare]

theorem filterMethods (excluded : String → Bool) :
    MethodsKept excluded (fun _ ↦ False) d
      { d with methods := d.methods.filter fun m ↦ !excluded m.signature } where
  places := by
    refine ⟨[], ?_⟩
    simp only [bareMethods, List.filter_map, Function.comp_def, Method.signature_bare,
      List.append_nil]
  same signature hexcluded _ _ :=
    method?_filter (!excluded ·) (by rw [hexcluded]; rfl)

end MethodsKept

end Description

/-! ## One change -/

open Description

section Changes

variable {s : Setting} {signature message : String} {d e : Description}

/-- What a change of one method does if it succeeds: the method is there, or it is added first, or
the hierarchy does not have it. -/
theorem Setting.withMethod_cases {change : Description → Description}
    (h : s.withMethod signature message change d = (e, none)) :
    (d.method? signature).isSome ∧ e = change d ∨
    (∃ className decl, Hierarchy.findMethod? s.hierarchy signature = some (className, decl) ∧
      decl.signature = signature ∧ e = change (d.addMethod (.ofDecl className decl))) ∨
    Hierarchy.findMethod? s.hierarchy signature = none ∧ e = d := by
  rw [Setting.withMethod] at h
  split at h
  · rename_i hd
    exact .inl ⟨hd, (Prod.mk.inj h).1.symm⟩
  · split at h
    · rename_i className decl hfind
      exact .inr (.inl ⟨className, decl, hfind, (s.declares_of_findMethod? hfind).2,
        (Prod.mk.inj h).1.symm⟩)
    · rename_i hnone
      rw [Setting.unknownMember] at h
      split at h
      · cases h
      · exact .inr (.inr ⟨hnone, (Prod.mk.inj h).1.symm⟩)

variable {change : Method → Method}

theorem Setting.withMethod_kept (hchange : ∀ m, (change m).bare = m.bare)
    (h : s.withMethod signature message (·.updateMethod signature change) d = (e, none)) :
    MethodsKept (fun _ ↦ false) (· = signature) d e := by
  obtain ⟨-, rfl⟩ | ⟨className, decl, -, -, rfl⟩ | ⟨-, rfl⟩ := withMethod_cases h
  · exact .updateMethod hchange signature
  · refine ((MethodsKept.addMethod _).trans (.updateMethod hchange signature)).congr ?_ ?_
    · exact fun _ ↦ rfl
    · rintro _ (hfalse | rfl)
      · exact hfalse.elim
      · rfl
  · exact .of_methods_eq rfl _

theorem Setting.withMethod_has (hchange : ∀ m, (change m).bare = m.bare) {signature' : String}
    (hfound : (Hierarchy.findMethod? s.hierarchy signature').isSome)
    (h : s.withMethod signature message (·.updateMethod signature change) d = (e, none)) :
    (e.method? signature').isSome ↔ (d.method? signature').isSome ∨ signature = signature' := by
  have hsignature : ∀ m, (change m).signature = m.signature := fun m ↦ by
    rw [← Method.signature_bare, hchange, Method.signature_bare]
  obtain ⟨hd, rfl⟩ | ⟨className, decl, -, hdecl, rfl⟩ | ⟨hnone, rfl⟩ := withMethod_cases h
  · rw [method?_isSome_updateMethod hsignature]
    refine ⟨.inl, ?_⟩
    rintro (hd' | rfl)
    · exact hd'
    · exact hd
  · rw [method?_isSome_updateMethod hsignature, method?_addMethod, Method.signature_ofDecl, hdecl,
      Option.isSome_or, Bool.or_eq_true]
    refine or_congr_right ?_
    split
    · rename_i heq
      exact iff_of_true rfl heq
    · rename_i hne
      exact iff_of_false Bool.false_ne_true hne
  · refine ⟨.inl, ?_⟩
    rintro (hd | rfl)
    · exact hd
    · rw [hnone] at hfound
      cases hfound

theorem MethodNote.apply_kept {n : MethodNote} (h : n.apply s d = (e, none)) :
    MethodsKept (fun _ ↦ false) (· = n.signature) d e :=
  Setting.withMethod_kept (·.bare_annotate n) h

theorem MethodNote.apply_has {n : MethodNote}
    (hfound : (Hierarchy.findMethod? s.hierarchy signature).isSome)
    (h : n.apply s d = (e, none)) :
    (e.method? signature).isSome ↔ (d.method? signature).isSome ∨ n.signature = signature :=
  Setting.withMethod_has (·.bare_annotate n) hfound h

theorem MethodOrder.applyTo_kept {order : MethodOrder}
    (h : order.applyTo s signature d = (e, none)) :
    MethodsKept (fun _ ↦ false) (· = signature) d e :=
  Setting.withMethod_kept (·.bare_withOrder order) h

theorem MethodOrder.applyTo_has {order : MethodOrder} {signature' : String}
    (hfound : (Hierarchy.findMethod? s.hierarchy signature').isSome)
    (h : order.applyTo s signature d = (e, none)) :
    (e.method? signature').isSome ↔ (d.method? signature').isSome ∨ signature = signature' :=
  Setting.withMethod_has (·.bare_withOrder order) hfound h

namespace MethodOperation

variable {o : MethodOperation}

/-- Whether the operation says anything of methods of a signature. -/
def accepts (o : MethodOperation) (signature : String) : Bool :=
  Wildcard.accepts o.pattern signature

/-- What the operation says of methods of a signature: whether they are included. -/
def says? (o : MethodOperation) (signature : String) : Option Bool :=
  if o.accepts signature then some o.includes else none

/-- Whether the operation drops methods of a signature. -/
def excludes (o : MethodOperation) (signature : String) : Bool :=
  !o.includes && o.accepts signature

theorem foldl_addNewMethod_kept (ms : List Method) :
    ∀ d, MethodsKept (fun _ ↦ false) (fun _ ↦ False) d (ms.foldl addNewMethod d) := by
  induction ms with
  | nil => exact fun d ↦ .of_methods_eq rfl _
  | cons m ms ih =>
    intro d
    have hfirst : MethodsKept (fun _ ↦ false) (fun _ ↦ False) d (d.addNewMethod m) := by
      rw [addNewMethod]
      split
      · exact .of_methods_eq rfl _
      · exact .addMethod m
    exact (hfirst.trans (ih _)).congr (fun _ ↦ rfl) fun _ h ↦ h.elim id id

theorem foldl_addNewMethod_has (ms : List Method) (signature : String) :
    ∀ d, ((ms.foldl addNewMethod d).method? signature).isSome ↔
      (d.method? signature).isSome ∨ ∃ m ∈ ms, m.signature = signature := by
  induction ms with
  | nil => simp
  | cons m ms ih =>
    intro d
    have hfirst : ((d.addNewMethod m).method? signature).isSome ↔
        (d.method? signature).isSome ∨ m.signature = signature := by
      rw [addNewMethod]
      split
      · rename_i hd
        refine ⟨.inl, ?_⟩
        rintro (h | rfl)
        · exact h
        · exact hd
      · rw [method?_addMethod]
        by_cases hm : m.signature = signature <;> simp [hm]
    rw [List.foldl_cons, ih, hfirst, List.exists_mem_cons_iff, or_assoc]

/-- What an operation does if it succeeds. -/
theorem apply_cases (h : o.apply s d = (e, none)) :
    o.includes = true ∧ e = (o.matched s).foldl addNewMethod d ∨
    o.includes = false ∧
      e = { d with methods := d.methods.filter fun m ↦ !o.accepts m.signature } := by
  rw [apply] at h
  split at h
  · rename_i hincludes
    refine .inl ⟨hincludes, ?_⟩
    dsimp only at h
    split at h
    · rw [Setting.unknownMember] at h
      split at h
      · cases h
      · exact (Prod.mk.inj h).1.symm
    · exact (Prod.mk.inj h).1.symm
  · rename_i hincludes
    exact .inr ⟨by simpa using hincludes, (Prod.mk.inj h).1.symm⟩

theorem apply_kept (h : o.apply s d = (e, none)) :
    MethodsKept o.excludes (fun _ ↦ False) d e := by
  obtain ⟨hincludes, rfl⟩ | ⟨hincludes, rfl⟩ := apply_cases h
  · exact (foldl_addNewMethod_kept _ d).congr (fun _ ↦ by rw [excludes, hincludes]; rfl)
      fun _ ↦ id
  · exact (MethodsKept.filterMethods o.accepts).congr (fun _ ↦ by rw [excludes, hincludes]; rfl)
      fun _ ↦ id

/-- The methods that a pattern matches are all of the hierarchy's of such signatures. -/
theorem exists_mem_matched (hfound : (Hierarchy.findMethod? s.hierarchy signature).isSome) :
    (∃ m ∈ o.matched s, m.signature = signature) ↔ o.accepts signature := by
  obtain ⟨found, hfound⟩ := Option.isSome_iff_exists.mp hfound
  obtain ⟨⟨className, decl⟩, hlisted, hdecl⟩ := Hierarchy.exists_mem_publicMethods hfound
  constructor
  · rintro ⟨m, hm, rfl⟩
    obtain ⟨⟨className, decl⟩, hmem, rfl⟩ := List.mem_map.mp hm
    rw [Method.signature_ofDecl]
    exact (List.mem_filter.mp hmem).2
  · intro haccepts
    obtain rfl : decl.signature = signature := hdecl
    refine ⟨.ofDecl className decl, List.mem_map.mpr ⟨(className, decl), ?_, rfl⟩,
      Method.signature_ofDecl className decl⟩
    exact List.mem_filter.mpr ⟨hlisted, haccepts⟩

theorem apply_has (hfound : (Hierarchy.findMethod? s.hierarchy signature).isSome)
    (h : o.apply s d = (e, none)) :
    (e.method? signature).isSome ↔
      if o.accepts signature then o.includes = true else (d.method? signature).isSome := by
  obtain ⟨hincludes, rfl⟩ | ⟨hincludes, rfl⟩ := apply_cases h
  · rw [foldl_addNewMethod_has, exists_mem_matched hfound, hincludes]
    cases o.accepts signature <;> simp
  · cases haccepts : o.accepts signature with
    | true =>
      rw [method?_isSome_iff, hincludes]
      simp only [List.mem_filter]
      refine iff_of_false ?_ Bool.false_ne_true
      rintro ⟨m, ⟨-, hm⟩, rfl⟩
      rw [haccepts] at hm
      cases hm
    | false =>
      rw [method?_filter (!o.accepts ·) (by rw [haccepts]; rfl)]
      rfl

end MethodOperation

end Changes

/-! ## All changes -/

namespace LayerDocument

variable {s : Setting} {layer : LayerDocument} {signature : String} {d e : Description}

/-- A note of the layer is on a method of the signature. -/
def Notes (layer : LayerDocument) (signature : String) : Prop :=
  ∃ n ∈ layer.methods, n.signature = signature

/-- The layer gives an order to methods of the signature. -/
def Orders (layer : LayerDocument) (signature : String) : Prop :=
  ∃ o ∈ layer.methodOrders.methods, o.1 = signature

/-- Whether the last operation that says anything of a signature includes it; nothing if none
does. -/
def lastOperation? (layer : LayerDocument) (signature : String) : Option Bool :=
  lastSome (·.says? signature) layer.methodOperations

/-- Whether an operation of the layer drops methods of a signature. -/
def excludes (layer : LayerDocument) (signature : String) : Bool :=
  layer.methodOperations.any (·.excludes signature)

section Each

variable {α : Type u} {l : List α} {change : α → Change}

theorem each_kept {excluded : α → String → Bool} {named : α → String → Prop}
    (hstep : ∀ a ∈ l, ∀ d e, change a d = (e, none) → MethodsKept (excluded a) (named a) d e)
    (h : Change.each l change d = (e, none)) :
    MethodsKept (fun signature ↦ l.any (excluded · signature))
      (fun signature ↦ ∃ a ∈ l, named a signature) d e := by
  induction l generalizing d with
  | nil =>
    obtain rfl := (Prod.mk.inj h).1
    exact .of_methods_eq rfl _
  | cons a l ih =>
    obtain ⟨m, hfirst, hrest⟩ := Change.andThen_eq_none_iff.mp h
    have hfirst := hstep a List.mem_cons_self _ _ hfirst
    have hrest := ih (fun b hb ↦ hstep b (List.mem_cons_of_mem a hb)) hrest
    exact (hfirst.trans hrest).congr (fun _ ↦ rfl) fun signature ↦
      (List.exists_mem_cons_iff (named · signature) a l).mpr

theorem each_has {signatureOf : α → String}
    (hstep : ∀ a ∈ l, ∀ d e, change a d = (e, none) →
      ((e.method? signature).isSome ↔ (d.method? signature).isSome ∨ signatureOf a = signature))
    (h : Change.each l change d = (e, none)) :
    (e.method? signature).isSome ↔
      (d.method? signature).isSome ∨ ∃ a ∈ l, signatureOf a = signature := by
  induction l generalizing d with
  | nil =>
    obtain rfl := (Prod.mk.inj h).1
    simp
  | cons a l ih =>
    obtain ⟨m, hfirst, hrest⟩ := Change.andThen_eq_none_iff.mp h
    rw [ih (fun b hb ↦ hstep b (List.mem_cons_of_mem a hb)) hrest,
      hstep a List.mem_cons_self _ _ hfirst, List.exists_mem_cons_iff, or_assoc]

end Each

/-- **The last operation decides** that says anything of the signature. -/
theorem operations_has {operations : List MethodOperation}
    (hfound : (Hierarchy.findMethod? s.hierarchy signature).isSome)
    (h : Change.each operations (·.apply s) d = (e, none)) :
    (e.method? signature).isSome ↔ lastSome (·.says? signature) operations = some true ∨
      lastSome (·.says? signature) operations = none ∧ (d.method? signature).isSome := by
  induction operations generalizing d with
  | nil =>
    obtain rfl := (Prod.mk.inj h).1
    simp [lastSome]
  | cons o operations ih =>
    obtain ⟨m, hfirst, hrest⟩ := Change.andThen_eq_none_iff.mp h
    have hfirst := o.apply_has hfound hfirst
    have hlast : lastSome (·.says? signature) (o :: operations) =
        (lastSome (·.says? signature) operations).or (o.says? signature) :=
      (lastSome_append _ [o] operations).trans
        (congrArg _ (lastSome_toList (MethodOperation.says? · signature) (some o)))
    -- The first operation matters only where those after it say nothing.
    rw [ih hrest, hlast, hfirst, MethodOperation.says?]
    cases lastSome (·.says? signature) operations with
    | some b => simp
    | none => cases o.accepts signature <;> simp

/-- The three groups of changes that a layer makes to methods. -/
theorem applyMethods_cases (h : layer.applyMethods s d = (e, none)) :
    ∃ d₁ d₂ d₃, Change.each layer.methods (·.apply s) d = (d₁, none) ∧
      Change.each layer.methodOperations (·.apply s) d₁ = (d₂, none) ∧
      d₃.methods = d₂.methods ∧
      Change.each layer.methodOrders.methods (fun o ↦ o.2.applyTo s o.1) d₃ = (e, none) := by
  obtain ⟨d₁, hnotes, h⟩ := Change.andThen_eq_none_iff.mp h
  obtain ⟨d₂, hoperations, h⟩ := Change.andThen_eq_none_iff.mp h
  obtain ⟨d₃, hdefault, horders⟩ := Change.andThen_eq_none_iff.mp h
  obtain ⟨hdefault, -⟩ := Prod.mk.inj hdefault
  exact ⟨d₁, d₂, d₃, hnotes, hoperations, (congrArg Description.methods hdefault).symm, horders⟩

/-- **The methods that a layer leaves.**  Of a signature that the hierarchy has a method of, there is
a method after the layer if the layer gives it an order, or else if the last operation that says
anything of it includes it, or else, if there is no such operation, if there was one before or the
layer has a note on it.

Methods that are not excluded keep their places, before all that the layer adds, and stay as they are
if the layer does not name them. -/
theorem methods_of_applyMethods (h : layer.applyMethods s d = (e, none)) :
    (∀ signature, (Hierarchy.findMethod? s.hierarchy signature).isSome →
      ((e.method? signature).isSome ↔
        layer.Orders signature ∨ layer.lastOperation? signature = some true ∨
          layer.lastOperation? signature = none ∧
            ((d.method? signature).isSome ∨ layer.Notes signature))) ∧
    MethodsKept layer.excludes (fun signature ↦ layer.Notes signature ∨ layer.Orders signature)
      d e := by
  obtain ⟨d₁, d₂, d₃, hnotes, hoperations, hdefault, horders⟩ := applyMethods_cases h
  constructor
  · intro signature hfound
    have hnotes := each_has (fun n _ _ _ ↦ n.apply_has hfound) hnotes
    have hoperations := operations_has hfound hoperations
    have horders := each_has (fun o _ _ _ ↦ o.2.applyTo_has hfound) horders
    have hdefault : d₃.method? signature = d₂.method? signature := by
      rw [method?, hdefault, method?]
    rw [horders, hdefault, hoperations, hnotes, or_comm]
    rfl
  · have hnotes := each_kept (fun n _ _ _ ↦ n.apply_kept) hnotes
    have hoperations := each_kept (fun o _ _ _ ↦ o.apply_kept) hoperations
    have horders := each_kept (fun o _ _ _ ↦ o.2.applyTo_kept) horders
    have hdefault : MethodsKept _ (fun _ ↦ False) d₂ d₃ := .of_methods_eq hdefault _
    refine ((hnotes.trans hoperations).trans (hdefault.trans horders)).congr ?_ ?_
    · intro signature
      have hnever : ∀ {α : Type} (l : List α), (l.any fun _ ↦ false) = false := fun l ↦
        List.any_eq_false.mpr fun _ _ ↦ Bool.false_ne_true
      rw [hnever, hnever, Bool.or_false, Bool.or_false, Bool.false_or, excludes]
    · rintro signature ((hnoted | ⟨_, _, hfalse⟩) | hfalse | hordered)
      · exact .inl (hnoted.imp fun n ⟨hn, heq⟩ ↦ ⟨hn, heq.symm⟩)
      · exact hfalse.elim
      · exact hfalse.elim
      · exact .inr (hordered.imp fun o ⟨ho, heq⟩ ↦ ⟨ho, heq.symm⟩)

/-! A dial that has a setter and `pack` so far.  The layer drops the setter with others of its kind
and gets it back, says nothing of `pack`, and gives an order to a method of the superclass. -/

def dialHierarchy : List ClassDecl :=
  [{ name := "a.Dial", superclass? := some "a.Widget"
     methods := [{ name := "setMark", parameterTypes := ["int"] },
       { name := "setMax", parameterTypes := ["int"] }, { name := "pack" }] },
    { name := "a.Widget"
      methods := [{ name := "setData", parameterTypes := ["String"] }, { name := "dispose" }] }]

def dialSetting : Setting :=
  { hierarchy := dialHierarchy
    classPath := .root
    locator := ⟨fun _ ↦ none, fun _ _ ↦ false⟩
    strictMembers := true }

def dialLayer : LayerDocument :=
  { methods := [{ name := "setMax", parameters := [{ index := 0, typeName := "int" }] }]
    methodOperations := [{ includes := true, pattern := "set*" },
      { includes := false, pattern := "setM*" }, { includes := true, pattern := "setMark(int)" }]
    methodOrders := { methods := [("dispose()", .last)] } }

def dialDescription : Description :=
  { key := .pure "a.Dial", classDecl := { name := "a.Dial" }
    methods := [.ofDecl "a.Dial" { name := "setMark", parameterTypes := ["int"] },
      .ofDecl "a.Dial" { name := "pack" }] }

theorem methods_of_applyMethods_dial : ∃ e,
    dialLayer.applyMethods dialSetting dialDescription = (e, none) ∧
      (e.method? "setMark(int)").isSome ∧ ¬(e.method? "setMax(int)").isSome ∧
      e.method? "pack()" = dialDescription.method? "pack()" ∧
      e.methods.map (·.signature) = ["pack()", "setData(String)", "setMark(int)", "dispose()"] := by
  have happly : dialLayer.applyMethods dialSetting dialDescription =
      ((dialLayer.applyMethods dialSetting dialDescription).1, none) :=
    Prod.ext rfl (by decide +kernel)
  obtain ⟨hpresent, hkept⟩ := methods_of_applyMethods happly
  refine ⟨_, happly, ?_, ?_, ?_, by decide +kernel⟩
  · exact (hpresent _ (by decide +kernel)).mpr (.inr (.inl (by decide +kernel)))
  · rw [hpresent _ (by decide +kernel)]
    rintro (⟨o, ho, heq⟩ | hincluded | ⟨hnone, -⟩)
    · obtain rfl := List.mem_singleton.mp ho
      exact absurd heq (by decide)
    · exact absurd hincluded (by decide +kernel)
    · exact absurd hnone (by decide +kernel)
  · refine hkept.same _ (by decide +kernel) ?_ (by decide +kernel)
    rintro (⟨n, hn, heq⟩ | ⟨o, ho, heq⟩)
    · obtain rfl := List.mem_singleton.mp hn
      exact absurd heq (by decide +kernel)
    · obtain rfl := List.mem_singleton.mp ho
      exact absurd heq (by decide)

end LayerDocument

end ComponentCatalog
