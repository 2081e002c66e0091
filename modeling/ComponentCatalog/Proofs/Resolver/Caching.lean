import ComponentCatalog.Proofs.Resolver.Request
import ComponentCatalog.Proofs.Resolver.Resolution

/-!
# Caching does not show

In a session descriptions of classes are kept, shared, and dropped when the session ends.  **None of
this shows in what is replied**: after any run every request gives what it gives without a cache
(`reply_after`).

The invariant is `Resolver.Faithful`: what is kept under a name is what a resolution of the class of
that name makes.  A class is looked up by the name of the class that stands for it, but is kept
under the name in its description's key, so the two must be the same: the class that stands for a
loaded class is filed under its own name (`ClassPath.find?_of_normalize`), and resolutions keep the
key they are given (`Resolver.key_of_resolve`) as long as processors do.
-/

set_option autoImplicit false

namespace ComponentCatalog

universe u

/-! ## Classes that are loaded -/

namespace ClassPath

variable {cp : ClassPath} {c : ClassDecl}

theorem name_of_load {name : String} (h : cp.load name = .ok c) : c.name = name := by
  rw [load] at h
  split at h
  · rename_i found hfind
    obtain rfl := Except.ok.inj h
    exact cp.name_eq name found hfind
  · cases h

theorem find?_of_load {name : String} (h : cp.load name = .ok c) :
    cp.find? c.name = some c := by
  rw [load] at h
  split at h
  · rename_i found hfind
    obtain rfl := Except.ok.inj h
    rwa [cp.name_eq name found hfind]
  · cases h

end ClassPath

/-! ## The key of a resolution -/

namespace Resolver

variable {r : Resolver} {key : Key} {c : ClassDecl} {additional : List LayerResource}
  {d e : Description}

/-- No processor changes the key of a description. -/
def KeepsKeys (r : Resolver) : Prop :=
  ∀ p ∈ r.processors, ∀ d e, p.process d = .ok e → e.key = d.key

theorem keepsKeys_of_processors_eq_nil (h : r.processors = []) : r.KeepsKeys := by
  intro p hp
  rw [h] at hp
  cases hp

theorem key_of_applyLayer {s : Setting} {layer : LayerResource}
    (h : r.applyLayer s d layer = .ok e) : e.key = d.key := by
  obtain ⟨document, -, h⟩ := bind_eq_ok_iff.mp h
  exact (ClassLayer.addTo_effect (l := ⟨document, layer.className⟩) h).key

theorem key_of_complete {layers : List LayerResource} {last : LayerResource}
    (h : r.complete layers last d = .ok e) : e.key = d.key := by
  obtain ⟨toolkit, icon?, -, -, -, rfl⟩ := complete_eq_ok_iff.mp h
  rfl

/-- What layers, completing and processors leave of a description, a resolution leaves of it. -/
theorem eq_of_resolve {α : Type u} {get : Description → α}
    (hlayer : ∀ {s layer d e}, r.applyLayer s d layer = .ok e → get e = get d)
    (hcomplete : ∀ {layers last d e}, r.complete layers last d = .ok e → get e = get d)
    (hprocessor : ∀ p ∈ r.processors, ∀ d e, p.process d = .ok e → get e = get d)
    (h : r.resolve key c additional = .ok d) : get d = get (.ofClass key c) := by
  obtain ⟨hierarchy, -, h⟩ := bind_eq_ok_iff.mp (mapError_eq_ok_iff.mp h)
  split at h
  · cases h
  · obtain ⟨composed, hcomposed, h⟩ := bind_eq_ok_iff.mp h
    obtain ⟨completed, hcompleted, h⟩ := bind_eq_ok_iff.mp h
    have hcomposed : get composed = get (.ofClass key c) :=
      foldlM_induction (P := fun d ↦ get d = get (.ofClass key c))
        (fun layer _ d e hd he ↦ (hlayer he).trans hd) rfl hcomposed
    have hcompleted : get completed = get (.ofClass key c) :=
      (hcomplete hcompleted).trans hcomposed
    refine foldlM_induction (P := fun d ↦ get d = get (.ofClass key c)) (fun p hp d e hd he ↦ ?_)
      hcompleted h
    exact (hprocessor p hp d e (mapError_eq_ok_iff.mp he)).trans hd

/-- A resolution makes a description with the key it is given. -/
theorem key_of_resolve (hr : r.KeepsKeys) (h : r.resolve key c additional = .ok d) :
    d.key = key :=
  eq_of_resolve key_of_applyLayer key_of_complete hr h

end Resolver

/-! ## What is kept -/

/-- What is made of a class is kept if nothing is kept of it yet. -/
theorem Cache.insert_of_new {c : Cache} {s : SharedDescription} {className : String}
    (hkey : s.description.key = .pure className) (h : c.entries.get? className = none) :
    c.insert s = (s, { c with entries := c.entries.insert className s }) := by
  simp only [insert, hkey, h]

/-- What can happen in a session. -/
inductive SessionStep where
  | request (q : Request)
  | invalidate

namespace Resolver

variable {r : Resolver}

/-- The session after a step.  It goes on whether or not the request fails. -/
def step (r : Resolver) (σ : Session) : SessionStep → Session
  | .request q => ((r.serve q).run.run σ).2
  | .invalidate => σ.invalidate

/-- The session after steps in order, from one without descriptions. -/
def after (r : Resolver) (steps : List SessionStep) : Session := steps.foldl r.step {}

/-- What is kept under a name is what a resolution of the class of that name makes. -/
def Faithful (r : Resolver) (σ : Session) : Prop :=
  ∀ name s, σ.cache.entries.get? name = some s →
    ∃ c, r.classPath.find? name = some c ∧ r.resolve (.pure name) c [] = .ok s.description

theorem faithful_empty (r : Resolver) : r.Faithful {} := by
  intro name s h
  cases h

theorem Faithful.invalidate {σ : Session} (hσ : r.Faithful σ) : r.Faithful σ.invalidate := by
  intro name s h
  have hfilter : (σ.cache.entries.get? name).filter (·.description.cached) = some s :=
    (NameMap.get?_filter _ _ _).symm.trans h
  exact hσ name s (Option.filter_eq_some_iff.mp hfilter).1

/-- What a resolution makes of the class of a name can be kept, if nothing is kept yet. -/
theorem Faithful.keep {σ : Session} (hσ : r.Faithful σ) {c : ClassDecl} {name : String}
    {s : SharedDescription} (hkey : s.description.key = .pure name)
    (hfind : r.classPath.find? name = some c)
    (hresolve : r.resolve (.pure name) c [] = .ok s.description)
    (hnew : σ.cache.entries.get? name = none) :
    ((Session.keep s).run.run σ).1 = .ok s ∧
      r.Faithful ((Session.keep s).run.run σ).2 := by
  rw [Session.run_keep, Cache.insert_of_new hkey hnew]
  refine ⟨rfl, fun other kept h ↦ ?_⟩
  have h : (if other = name then some s else σ.cache.entries.get? other) = some kept :=
    (NameMap.get?_insert _ _ _ _).symm.trans h
  split at h
  · rename_i heq
    obtain rfl := Option.some.inj h
    exact ⟨c, heq ▸ hfind, heq ▸ hresolve⟩
  · exact hσ other kept h

/-- So a class of which nothing is kept is answered by its resolution. -/
theorem Faithful.make_keep {σ : Session} (hσ : r.Faithful σ) (hr : r.KeepsKeys) {c : ClassDecl}
    (hfind : r.classPath.find? c.name = some c) (hnew : σ.cache.entries.get? c.name = none) :
    ((r.make (.pure c.name) c [] >>= Session.keep).run.run σ).1.map (·.description) =
        r.resolve (.pure c.name) c [] ∧
      r.Faithful ((r.make (.pure c.name) c [] >>= Session.keep).run.run σ).2 := by
  rw [InSession.run_bind, run_make]
  cases hresolve : r.resolve (.pure c.name) c [] with
  | error failure => exact ⟨rfl, hσ⟩
  | ok d =>
    have hkey : d.key = .pure c.name := key_of_resolve hr hresolve
    have hmade : r.Faithful { σ with resolutions := σ.resolutions + 1 } := hσ
    obtain ⟨hkept, hfaithful⟩ := hmade.keep (s := ⟨d, σ.resolutions⟩) hkey hfind hresolve hnew
    exact ⟨congrArg (Except.map (·.description)) hkept, hfaithful⟩

/-- What is kept of a class is what its resolution makes, and so is what is kept now. -/
theorem answers_describeClass (hr : r.KeepsKeys) {c : ClassDecl}
    (hc : r.classPath.find? c.name = some c) :
    Answers r.Faithful (r.describeClass c) (r.freshClass c) := by
  refine Answers.lift_bind fun named hnamed ↦ ?_
  have hfind := ClassPath.find?_of_normalize hc hnamed
  split
  · intro σ hσ
    rw [Session.run_lookUp_bind]
    cases hget : σ.cache.entries.get? named.name with
    | some s =>
      obtain ⟨c, hc, hs⟩ := hσ named.name s hget
      obtain rfl := Option.some.inj (hfind.symm.trans hc)
      simp only [Cache.get, hget]
      exact ⟨hs.symm, hσ⟩
    | none =>
      -- The miss is counted, and what is kept stays the same.
      have hmissed :
          r.Faithful { σ with cache := { σ.cache with misses := σ.cache.misses + 1 } } := hσ
      simp only [Cache.get, hget]
      exact hmissed.make_keep hr hfind hget
  · exact answers_make (fun _ _ hσ ↦ hσ) _ named []

/-! ## Runs -/

theorem answers_serve_of_keepsKeys (hr : r.KeepsKeys) (q : Request) :
    Answers r.Faithful (r.serve q) (r.fresh q) :=
  answers_serve (fun _ _ hσ ↦ hσ)
    (fun _ _ hc ↦ answers_describeClass hr (ClassPath.find?_of_load hc)) q

theorem Faithful.step (hr : r.KeepsKeys) {σ : Session} (hσ : r.Faithful σ) (s : SessionStep) :
    r.Faithful (r.step σ s) := by
  cases s with
  | request q => exact (answers_serve_of_keepsKeys hr q σ hσ).2
  | invalidate => exact hσ.invalidate

theorem faithful_after (hr : r.KeepsKeys) (steps : List SessionStep) :
    r.Faithful (r.after steps) := by
  induction steps using List.reverseRecOn with
  | nil => exact r.faithful_empty
  | append_singleton steps s ih =>
    rw [after, List.foldl_append]
    exact ih.step hr s

theorem reply_after_eq_fresh (hr : r.KeepsKeys) (steps : List SessionStep) (q : Request) :
    r.reply q (r.after steps) = r.fresh q :=
  (answers_serve_of_keepsKeys hr q _ (faithful_after hr steps)).1

theorem fresh_component (r : Resolver) (name : String) :
    r.fresh (.component name) = (r.classPath.load name >>= r.classPath.normalize) >>= fun named ↦
      r.resolve (.pure named.name) named [] := by
  simp only [fresh, freshClass, bind_assoc]

/-- **Caching does not show.**  At any point of any run a request gives what it gives without a
cache in any session.  So two names for which the same class stands give the same, whatever was
resolved, dropped or failed before. -/
theorem reply_after (hr : r.KeepsKeys) :
    (∀ steps q σ, r.reply q (r.after steps) = r.uncached.reply q σ) ∧
      ∀ name name' named, r.classPath.load name >>= r.classPath.normalize = .ok named →
        r.classPath.load name' >>= r.classPath.normalize = .ok named →
        ∀ steps steps', r.reply (.component name) (r.after steps) =
          r.reply (.component name') (r.after steps') := by
  refine ⟨fun steps q σ ↦ ?_, fun name name' named hname hname' steps steps' ↦ ?_⟩
  · rw [reply_after_eq_fresh hr, reply_uncached]
  · rw [reply_after_eq_fresh hr, reply_after_eq_fresh hr, fresh_component, fresh_component, hname,
      hname']

/-! ## Descriptions of classes in a session -/

section Describe

variable {σ : Session} {name : String} {named : ClassDecl} {d : Description}
  (hnamed : r.classPath.load name >>= r.classPath.normalize = .ok named)
  (hcache : r.options.cacheEnabled = true)

include hnamed hcache

theorem describe_eq_of_named : r.describe name = Session.lookUp named.name >>= fun
    | some shared => pure shared
    | none => r.make (.pure named.name) named [] >>= Session.keep := by
  obtain ⟨c, hload, hnormalize⟩ := bind_eq_ok_iff.mp hnamed
  rw [describe, hload]
  show r.describeClass c = _
  rw [describeClass, hnormalize]
  exact if_pos hcache

theorem run_describe_of_kept {s : SharedDescription}
    (hkept : σ.cache.entries.get? named.name = some s) :
    (r.describe name).run.run σ =
      (.ok s, { σ with cache := { σ.cache with hits := σ.cache.hits + 1 } }) := by
  rw [describe_eq_of_named hnamed hcache, Session.run_lookUp_bind, Cache.get, hkept]
  rfl

theorem run_describe_of_new (hnew : σ.cache.entries.get? named.name = none)
    (hresolve : r.resolve (.pure named.name) named [] = .ok d) (hkey : d.key = .pure named.name) :
    (r.describe name).run.run σ =
      (.ok ⟨d, σ.resolutions⟩,
        { cache := { entries := σ.cache.entries.insert named.name ⟨d, σ.resolutions⟩
                     hits := σ.cache.hits, misses := σ.cache.misses + 1 }
          resolutions := σ.resolutions + 1 }) := by
  rw [describe_eq_of_named hnamed hcache, Session.run_lookUp_bind, Cache.get, hnew]
  dsimp only
  rw [InSession.run_bind, run_make, hresolve]
  dsimp only
  rw [Session.run_keep]
  dsimp only
  rw [Cache.insert_of_new (c := { σ.cache with misses := σ.cache.misses + 1 }) hkey hnew]

end Describe

/-! A panel and an anonymous class that it stands for, with a processor that gives an order.  One of
them is asked for after the other, and gets what is kept of it. -/

def panelForm : ClassDecl := { name := "a.Form$1", superclass? := some "a.Panel" }

def panelFormResolver : Resolver :=
  { panelResolver with
    classPath := ClassPath.root.addAll [{ name := "a.Panel" }, panelForm]
    processors := [{ name := "order", process := fun d ↦ .ok { d with order? := some "last" } }] }

theorem keepsKeys_panelForm : panelFormResolver.KeepsKeys := by
  intro p hp d e he
  obtain rfl := List.mem_singleton.mp hp
  obtain rfl := Except.ok.inj he
  rfl

theorem named_panel :
    panelFormResolver.classPath.load "a.Panel" >>= panelFormResolver.classPath.normalize =
      .ok { name := "a.Panel" } :=
  ClassPath.namedFrom_of_not_isNameless (by decide)

theorem named_form :
    panelFormResolver.classPath.load "a.Form$1" >>= panelFormResolver.classPath.normalize =
      .ok { name := "a.Panel" } := by
  refine (ClassPath.namedFrom_of_isNameless (by decide) rfl (by decide) rfl).trans ?_
  exact ClassPath.namedFrom_of_not_isNameless (by decide)

theorem exists_resolve_panelForm : ∃ d,
    panelFormResolver.resolve (.pure "a.Panel") { name := "a.Panel" } [] = .ok d ∧
      d.key = .pure "a.Panel" ∧ d.modelClass? = some "a.PanelInfo" ∧ d.order? = some "last" := by
  have hhierarchy : panelFormResolver.classPath.hierarchy { name := "a.Panel" } =
      .ok [{ name := "a.Panel" }] := by
    rw [ClassPath.hierarchy, ClassPath.superclassesFrom]
    rfl
  have hlayers : panelFormResolver.locator.layersOf [{ name := "a.Panel" }] = [panelLayer] := by
    decide +kernel
  have hread : (panelFormResolver.allLayers [{ name := "a.Panel" }] []).mapM
      panelFormResolver.readLayer = .ok [panelDocument] := by
    rw [allLayers, hlayers, List.append_nil]
    exact mapM_readLayer_panelLayer rfl
  have hends : panelFormResolver.classPath.SearchEnds panelFormResolver.locator "a.Panel" :=
    ClassPath.searchEnds_of_parents_eq_nil rfl
  obtain ⟨last, d, hd, hresolve⟩ :=
    exists_resolve_eq hhierarchy (hlayers ▸ List.cons_ne_nil _ _) hread rfl rfl hends rfl
  obtain ⟨toolkit, icon?, -, -, -, rfl⟩ := complete_eq_ok_iff.mp hd
  exact ⟨_, hresolve, rfl, rfl, rfl⟩

theorem reply_after_panelForm : panelFormResolver.KeepsKeys ∧ ∃ d,
    d.modelClass? = some "a.PanelInfo" ∧ d.order? = some "last" ∧
      panelFormResolver.reply (.component "a.Form$1")
        (panelFormResolver.after [.request (.component "a.Panel")]) = .ok d ∧
      panelFormResolver.uncached.reply (.component "a.Form$1") {} = .ok d ∧
      panelFormResolver.reply (.component "a.Panel")
        (panelFormResolver.after [.request (.component "a.Form$1"), .invalidate]) = .ok d ∧
      panelFormResolver.after
          [.request (.component "a.Panel"), .request (.component "a.Form$1")] =
        { cache := { entries := NameMap.empty.insert "a.Panel" ⟨d, 0⟩, hits := 1, misses := 1 }
          resolutions := 1 } := by
  obtain ⟨hreply, hnames⟩ := reply_after keepsKeys_panelForm
  obtain ⟨d, hd, hkey, hmodel, horder⟩ := exists_resolve_panelForm
  have hfirst : panelFormResolver.after [.request (.component "a.Panel")] =
      ⟨{ entries := NameMap.empty.insert "a.Panel" ⟨d, 0⟩, misses := 1 }, 1⟩ :=
    congrArg Prod.snd (run_describe_of_new (σ := {}) named_panel rfl rfl hd hkey)
  have hkept : (panelFormResolver.after [.request (.component "a.Panel")]).cache.entries.get?
      "a.Panel" = some ⟨d, 0⟩ := by
    rw [hfirst]
    exact (NameMap.get?_insert _ _ _ _).trans (if_pos rfl)
  have hsecond := run_describe_of_kept named_form rfl hkept
  have hform : panelFormResolver.reply (.component "a.Form$1")
      (panelFormResolver.after [.request (.component "a.Panel")]) = .ok d :=
    congrArg (fun outcome ↦ outcome.1.map (·.description)) hsecond
  refine ⟨keepsKeys_panelForm, d, hmodel, horder, hform, (hreply _ _ _).symm.trans hform,
    (hnames _ _ _ named_panel named_form _ _).trans hform, ?_⟩
  refine (congrArg Prod.snd hsecond).trans ?_
  rw [hfirst]
  rfl

end Resolver

end ComponentCatalog
