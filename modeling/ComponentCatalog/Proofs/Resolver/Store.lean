import ComponentCatalog.Proofs.Resolver.Context

/-!
# What a cache holds

A cache holds descriptions of classes, each under the name of its class, and whatever is done with
it, this stays so.  A resolver works on the cache of its session by nothing but look-ups and
insertions, and **an answer leaves little behind** (`Resolver.store_laws`): nothing if it fails or
comes from metadata for a context, and otherwise at most one new entry, under the name of the class
that stands for the one asked for.

There are two parts, and in both a step is shown first and then a run.  `Cache.Operation` is what
can be done with a cache.  `AddsAtMost` is what an action in a session leaves in its cache; to
look things up outside of the session first makes no difference to it (`AddsAtMost.lift_bind`), so
that it holds of every answer as soon as it holds of `Resolver.make` and `Resolver.describeClass`.
-/

set_option autoImplicit false

namespace ComponentCatalog

/-! ## Operations on a cache -/

namespace Cache

/-- What can be done with a cache. -/
inductive Operation where
  | get (className : String)
  | insert (s : SharedDescription)
  | clear
  | endSession

namespace Operation

def apply (c : Cache) : Operation → Cache
  | get className => (c.get className).2
  | insert s => (c.insert s).2
  | clear => c.clear
  | endSession => c.endSession

def isGet : Operation → Bool
  | get _ => true
  | _ => false

end Operation

/-- The cache after operations in order. -/
def after (c : Cache) (ops : List Operation) : Cache := ops.foldl Operation.apply c

/-- How often a class was looked up, as the counters have it. -/
def lookUps (c : Cache) : UInt64 := c.hits + c.misses

/-- Every description is one of a class and filed under its name. -/
def Filed (c : Cache) : Prop :=
  ∀ name s, c.entries.get? name = some s → s.description.key = .pure name

variable {c : Cache} {s kept : SharedDescription}

/-! ### One operation -/

theorem entries_get (c : Cache) (className : String) : (c.get className).2.entries = c.entries := by
  rw [get]
  split
  · rfl
  · rfl

theorem insert_of_contextual (h : s.description.key.isPure = false) : c.insert s = (s, c) := by
  rw [insert]
  split
  · rfl
  · rename_i hkey
    rw [hkey] at h
    cases h

theorem insert_of_get? {className : String} (hkey : s.description.key = .pure className)
    (h : c.entries.get? className = some kept) : c.insert s = (kept, c) := by
  simp only [insert, hkey, h]

/-- An insertion changes nothing, or it adds a new entry. -/
theorem insert_cases (c : Cache) (s : SharedDescription) :
    (c.insert s).2 = c ∨ ∃ className, s.description.key = .pure className ∧
      c.entries.get? className = none ∧
      c.insert s = (s, { c with entries := c.entries.insert className s }) := by
  cases hkey : s.description.key with
  | contextual =>
    exact .inl (congrArg Prod.snd (insert_of_contextual (congrArg Key.isPure hkey)))
  | pure className =>
    cases hfound : c.entries.get? className with
    | some kept => exact .inl (congrArg Prod.snd (insert_of_get? hkey hfound))
    | none => exact .inr ⟨className, rfl, hfound, insert_of_new hkey hfound⟩

/-- What stays when a session ends. -/
theorem get?_endSession_eq_some_iff {name : String} :
    c.endSession.entries.get? name = some s ↔
      c.entries.get? name = some s ∧ s.description.cached := by
  rw [endSession, NameMap.get?_filter, Option.filter_eq_some_iff]

theorem Filed.apply (h : c.Filed) (op : Operation) : (op.apply c).Filed := by
  intro name s hs
  cases op with
  | get className =>
    rw [Operation.apply, entries_get] at hs
    exact h name s hs
  | insert new =>
    rw [Operation.apply] at hs
    obtain heq | ⟨className, hkey, -, heq⟩ := c.insert_cases new
    · rw [heq] at hs
      exact h name s hs
    · rw [heq, NameMap.get?_insert] at hs
      split at hs
      · rename_i hname
        obtain rfl := Option.some.inj hs
        rw [hname, hkey]
      · exact h name s hs
  | clear => cases hs
  | endSession => exact h name s (get?_endSession_eq_some_iff.mp hs).1

theorem lookUps_apply (c : Cache) (op : Operation) :
    (op.apply c).lookUps = c.lookUps + UInt64.ofNat (if op.isGet then 1 else 0) := by
  cases op with
  | get className =>
    rw [Operation.apply, get]
    split
    · show c.hits + 1 + c.misses = c.hits + c.misses + 1
      rw [UInt64.add_assoc, UInt64.add_comm 1, UInt64.add_assoc]
    · exact (UInt64.add_assoc _ _ _).symm
  | insert s =>
    obtain heq | ⟨className, -, -, heq⟩ := c.insert_cases s
    · rw [Operation.apply, heq]
      exact (UInt64.add_zero _).symm
    · rw [Operation.apply, heq]
      exact (UInt64.add_zero _).symm
  | clear => exact (UInt64.add_zero _).symm
  | endSession => exact (UInt64.add_zero _).symm

/-! ### Runs -/

theorem Filed.after (h : c.Filed) (ops : List Operation) : (c.after ops).Filed := by
  induction ops generalizing c with
  | nil => exact h
  | cons op ops ih => exact ih (h.apply op)

theorem filed_empty : empty.Filed := fun _ _ h ↦ nomatch h

theorem lookUps_after (c : Cache) (ops : List Operation) :
    (c.after ops).lookUps = c.lookUps + UInt64.ofNat (ops.countP (·.isGet)) := by
  induction ops generalizing c with
  | nil => exact (UInt64.add_zero _).symm
  | cons op ops ih =>
    have hcount : (op :: ops).countP (·.isGet) =
        (if op.isGet then 1 else 0) + ops.countP (·.isGet) := by
      rw [List.countP_cons, Nat.add_comm]
    have hafter : c.after (op :: ops) = (op.apply c).after ops := rfl
    rw [hafter, ih, lookUps_apply, hcount, UInt64.ofNat_add, UInt64.add_assoc]

/-- What holds of a cache whatever was done with it. -/
structure Laws (c : Cache) : Prop where
  filed : c.Filed
  insert_present : ∀ s kept className, s.description.key = .pure className →
    c.entries.get? className = some kept → c.insert s = (kept, c)
  insert_contextual : ∀ s, s.description.key.isPure = false → c.insert s = (s, c)
  keeps : ∀ name s, c.endSession.entries.get? name = some s ↔
    c.entries.get? name = some s ∧ s.description.cached

theorem laws_after (ops : List Operation) : (empty.after ops).Laws where
  filed := filed_empty.after ops
  insert_present _ _ _ := insert_of_get?
  insert_contextual _ := insert_of_contextual
  keeps _ _ := get?_endSession_eq_some_iff

end Cache

/-! ## Actions in a session -/

/-- An action that has nothing to do with the cache. -/
def KeepsCache (action : InSession SharedDescription) : Prop :=
  ∀ σ, (action.run.run σ).2.cache = σ.cache

/-- What an action leaves in the cache of its session.  It works on the cache by operations, and
the entries stay the same, or else the action succeeds and what it gives is added under a new name,
one that satisfies `P`. -/
def AddsAtMost (P : String → Prop) (action : InSession SharedDescription) : Prop :=
  ∀ σ, (∃ ops, (action.run.run σ).2.cache = σ.cache.after ops) ∧
    ((action.run.run σ).2.cache.entries = σ.cache.entries ∨
      ∃ name s, P name ∧ (action.run.run σ).1 = .ok s ∧ σ.cache.entries.get? name = none ∧
        (action.run.run σ).2.cache.entries = σ.cache.entries.insert name s)

section Actions

variable {α : Type} {P : String → Prop} {action : InSession SharedDescription} {σ : Session}
  {x : Except Failure α} {f : α → InSession SharedDescription}

theorem KeepsCache.addsAtMost (h : KeepsCache action) : AddsAtMost P action :=
  fun σ ↦ ⟨⟨[], h σ⟩, .inl (congrArg Cache.entries (h σ))⟩

/-- What has nothing to do with the session comes first. -/
theorem KeepsCache.lift_bind (h : ∀ a, x = .ok a → KeepsCache (f a)) :
    KeepsCache (liftM x >>= f) := by
  cases x with
  | error failure => exact fun σ ↦ rfl
  | ok a => exact h a rfl

theorem AddsAtMost.lift_bind (h : ∀ a, x = .ok a → AddsAtMost P (f a)) :
    AddsAtMost P (liftM x >>= f) := by
  cases x with
  | error failure => exact fun σ ↦ ⟨⟨[], rfl⟩, .inl rfl⟩
  | ok a => exact h a rfl

theorem AddsAtMost.entries_of_error (h : AddsAtMost P action) {failure : Failure}
    (herror : (action.run.run σ).1 = .error failure) :
    (action.run.run σ).2.cache.entries = σ.cache.entries := by
  obtain ⟨-, hentries | ⟨name, s, -, hok, -⟩⟩ := h σ
  · exact hentries
  · rw [herror] at hok
    cases hok

end Actions

namespace Resolver

variable {r : Resolver} {σ : Session}

/-- To make a description does nothing to the cache. -/
theorem keepsCache_make (key : Key) (c : ClassDecl) (additional : List LayerResource) :
    KeepsCache (r.make key c additional) := by
  intro σ
  rw [run_make]
  cases r.resolve key c additional with
  | error failure => rfl
  | ok d => rfl

/-- The name under which the description of a class may be kept: that of the class that stands for
it, as long as processors keep keys. -/
def MayKeep (r : Resolver) (named : Except Failure ClassDecl) (name : String) : Prop :=
  r.KeepsKeys → named.map (·.name) = .ok name

theorem addsAtMost_keep (s : SharedDescription) :
    AddsAtMost (fun name ↦ s.description.key = .pure name) (Session.keep s) := by
  intro σ
  rw [Session.run_keep]
  refine ⟨⟨[.insert s], rfl⟩, ?_⟩
  obtain heq | ⟨name, hkey, hnew, heq⟩ := σ.cache.insert_cases s
  · exact .inl (congrArg Cache.entries heq)
  · rw [heq]
    exact .inr ⟨name, s, hkey, rfl, hnew, rfl⟩

theorem addsAtMost_describeClass (c : ClassDecl) :
    AddsAtMost (r.MayKeep (r.classPath.normalize c)) (r.describeClass c) := by
  refine AddsAtMost.lift_bind fun named hnamed ↦ ?_
  split
  · intro σ
    rw [Session.run_lookUp_bind]
    have hentries := σ.cache.entries_get named.name
    cases hget : (σ.cache.get named.name).1 with
    | some s => exact ⟨⟨[.get named.name], rfl⟩, .inl hentries⟩
    | none =>
      dsimp only
      rw [InSession.run_bind, run_make]
      cases hresolve : r.resolve (.pure named.name) named [] with
      | error failure => exact ⟨⟨[.get named.name], rfl⟩, .inl hentries⟩
      | ok d =>
        -- The look-up counts a miss and leaves the entries, so it is as if the description were
        -- kept at once.
        obtain ⟨⟨ops, hops⟩, hsame | ⟨name, s, hkey, hok, hnew, hadded⟩⟩ :=
          addsAtMost_keep ⟨d, σ.resolutions⟩ ⟨(σ.cache.get named.name).2, σ.resolutions + 1⟩
        · exact ⟨⟨.get named.name :: ops, hops⟩, .inl (hsame.trans hentries)⟩
        · have hname : r.MayKeep (.ok named) name := fun hr ↦
            congrArg Except.ok (Key.pure.inj ((key_of_resolve hr hresolve).symm.trans hkey))
          exact ⟨⟨.get named.name :: ops, hops⟩,
            .inr ⟨name, s, hnamed ▸ hname, hok, hentries ▸ hnew, hentries ▸ hadded⟩⟩
  · exact (keepsCache_make _ named []).addsAtMost

/-! ## Inquiries -/

theorem addsAtMost_load {name : String} {f : ClassDecl → InSession SharedDescription}
    (h : ∀ c, AddsAtMost (r.MayKeep (r.classPath.normalize c)) (f c)) :
    AddsAtMost (r.MayKeep (r.classPath.load name >>= r.classPath.normalize))
      (liftM (r.classPath.load name) >>= f) := by
  refine AddsAtMost.lift_bind fun c hc ↦ ?_
  rw [hc]
  exact h c

theorem addsAtMost_describeInContext (key : Key) :
    AddsAtMost (r.MayKeep (r.classPath.load key.componentClass >>= r.classPath.normalize))
      (r.describeInContext key) := by
  refine addsAtMost_load fun c ↦ ?_
  cases r.contextLayer? key with
  | some layer => exact (keepsCache_make key c [layer]).addsAtMost
  | none => exact addsAtMost_describeClass c

theorem keepsCache_describeInContext {key : Key} (h : r.contextLayer? key ≠ none) :
    KeepsCache (r.describeInContext key) := by
  refine KeepsCache.lift_bind fun c _ ↦ ?_
  obtain ⟨layer, hlayer⟩ := Option.ne_none_iff_exists'.mp h
  rw [hlayer]
  exact keepsCache_make key c [layer]

end Resolver

/-- The name of the class that a request is about. -/
def Request.className : Request → String
  | component className => className
  | factory f => f.returnClass
  | exposed _ _ returnClass => returnClass
  | parameter _ place => place.typeName

/-- There is metadata for the context of a request. -/
def Request.HasContext (r : Resolver) : Request → Prop
  | component _ => False
  | factory f => r.contextLayer? f.key ≠ none
  | exposed host method returnClass =>
    r.contextLayer? (.contextual returnClass host.key method) ≠ none
  | parameter host place => ∃ layers, r.parameterLayers host place = .ok layers ∧ layers ≠ []

/-- What a resolver is asked: a request, or the description of a class that is at hand. -/
inductive Inquiry where
  | request (q : Request)
  | describeClass (c : ClassDecl)

/-- There is metadata for the context of an inquiry. -/
def Inquiry.HasContext (r : Resolver) : Inquiry → Prop
  | request q => q.HasContext r
  | describeClass _ => False

namespace Resolver

variable {r : Resolver} {σ : Session}

def answer (r : Resolver) : Inquiry → InSession SharedDescription
  | .request q => r.serve q
  | .describeClass c => r.describeClass c

/-- The class that stands for the one that an inquiry is about. -/
def namedClass (r : Resolver) : Inquiry → Except Failure ClassDecl
  | .request q => r.classPath.load q.className >>= r.classPath.normalize
  | .describeClass c => r.classPath.normalize c

theorem addsAtMost_answer (i : Inquiry) :
    AddsAtMost (r.MayKeep (r.namedClass i)) (r.answer i) := by
  cases i with
  | describeClass c => exact addsAtMost_describeClass c
  | request q =>
    cases q with
    | component className => exact addsAtMost_load addsAtMost_describeClass
    | factory f => exact addsAtMost_describeInContext f.key
    | exposed host method returnClass => exact addsAtMost_describeInContext _
    | parameter host place =>
      refine addsAtMost_load fun c ↦ AddsAtMost.lift_bind fun layers _ ↦ ?_
      cases layers with
      | nil => exact addsAtMost_describeClass c
      | cons layer layers => exact (keepsCache_make _ c _).addsAtMost

theorem keepsCache_answer {i : Inquiry} (h : i.HasContext r) : KeepsCache (r.answer i) := by
  cases i with
  | describeClass c => exact h.elim
  | request q =>
    cases q with
    | component className => exact h.elim
    | factory f => exact keepsCache_describeInContext h
    | exposed host method returnClass => exact keepsCache_describeInContext h
    | parameter host place =>
      obtain ⟨layers, hlayers, hnonempty⟩ := h
      refine KeepsCache.lift_bind fun c _ ↦ KeepsCache.lift_bind fun found hfound ↦ ?_
      obtain rfl := Except.ok.inj (hlayers.symm.trans hfound)
      cases layers with
      | nil => exact absurd rfl hnonempty
      | cons layer layers => exact keepsCache_make _ c _

/-- What an answer leaves of what the cache holds. -/
structure LeavesLittle (r : Resolver) (i : Inquiry) (σ : Session) : Prop where
  of_error : ∀ failure, ((r.answer i).run.run σ).1 = .error failure →
    ((r.answer i).run.run σ).2.cache.entries = σ.cache.entries
  of_context : i.HasContext r → ((r.answer i).run.run σ).2.cache = σ.cache
  adds : ((r.answer i).run.run σ).2.cache.entries = σ.cache.entries ∨
    ∃ name s, r.MayKeep (r.namedClass i) name ∧ ((r.answer i).run.run σ).1 = .ok s ∧
      σ.cache.entries.get? name = none ∧
      ((r.answer i).run.run σ).2.cache.entries = σ.cache.entries.insert name s

theorem leavesLittle (i : Inquiry) (σ : Session) : r.LeavesLittle i σ where
  of_error _ h := (addsAtMost_answer i).entries_of_error h
  of_context h := keepsCache_answer h σ
  adds := (addsAtMost_answer i σ).2

end Resolver

/-! ## Runs -/

/-- What can happen in a session.  Several resolvers may share its cache, and everyone can work on
it. -/
inductive SessionEvent where
  | ask (r : Resolver) (i : Inquiry)
  | operation (op : Cache.Operation)

namespace Session

/-- The session after an event. -/
def occur (σ : Session) : SessionEvent → Session
  | .ask r i => ((r.answer i).run.run σ).2
  | .operation op => { σ with cache := op.apply σ.cache }

theorem exists_after_occur (σ : Session) (event : SessionEvent) :
    ∃ ops, (σ.occur event).cache = σ.cache.after ops := by
  cases event with
  | ask r i => exact (r.addsAtMost_answer i σ).1
  | operation op => exact ⟨[op], rfl⟩

/-- The session after events in order. -/
def run (σ : Session) (events : List SessionEvent) : Session := events.foldl occur σ

/-- In a run nothing is done to a cache but operations. -/
theorem exists_after_run (σ : Session) (events : List SessionEvent) :
    ∃ ops, (σ.run events).cache = σ.cache.after ops := by
  induction events generalizing σ with
  | nil => exact ⟨[], rfl⟩
  | cons event events ih =>
    obtain ⟨ops, hops⟩ := σ.exists_after_occur event
    obtain ⟨rest, hrest⟩ := ih (σ.occur event)
    have hrun : σ.run (event :: events) = (σ.occur event).run events := rfl
    refine ⟨ops ++ rest, ?_⟩
    rw [hrun, hrest, hops, Cache.after, Cache.after, Cache.after, List.foldl_append]

end Session

namespace Resolver

/-- **What a cache holds, and what an answer leaves in it.**  After operations in any order, the
laws of a cache hold and its counters have every look-up.  In a run the cache of the session comes
about in this way.  And an answer leaves nothing new in it, or one description. -/
theorem store_laws :
    (∀ ops, (Cache.empty.after ops).Laws ∧
      (Cache.empty.after ops).hits + (Cache.empty.after ops).misses =
        UInt64.ofNat (ops.countP (·.isGet))) ∧
      (∀ events, ∃ ops, (Session.run {} events).cache = Cache.empty.after ops) ∧
      ∀ (r : Resolver) i σ, r.LeavesLittle i σ := by
  refine ⟨fun ops ↦ ⟨Cache.laws_after ops, ?_⟩, fun events ↦ ?_, fun r i σ ↦ leavesLittle i σ⟩
  · exact (Cache.empty.lookUps_after ops).trans (UInt64.zero_add _)
  · exact Session.exists_after_run {} events

/-! The panel and the anonymous class that it stands for: whichever is asked for, what is kept is
filed under the panel.  A slider with metadata for its factory method leaves nothing behind. -/

theorem store_laws_panelForm :
    (∀ ops name s, (Cache.empty.after ops).entries.get? name = some s →
      s.description.key.isPure) ∧
      ((sliderResolver.answer (.request (.factory sliderFactory))).run.run {}).2.cache = {} ∧
      (∀ σ, let entries :=
          ((panelFormResolver.answer (.request (.component "a.Form$1"))).run.run σ).2.cache.entries
        entries = σ.cache.entries ∨ ∃ s, entries = σ.cache.entries.insert "a.Panel" s) ∧
      ∃ s, (Session.run {}
          [.ask panelFormResolver (.request (.component "a.Form$1"))]).cache.entries =
            NameMap.empty.insert "a.Panel" s ∧
        s.description.key = .pure "a.Panel" ∧ s.description.modelClass? = some "a.PanelInfo" := by
  obtain ⟨hlaws, hruns, hlittle⟩ := store_laws
  refine ⟨fun ops name s h ↦ ?_, (hlittle _ _ {}).of_context ?_, fun σ ↦ ?_, ?_⟩
  · rw [(hlaws ops).1.filed name s h]
    rfl
  · have hlayer : sliderResolver.contextLayer? sliderFactory.key = some createdLayer := by
      decide +kernel
    exact fun hnone ↦ Option.some_ne_none _ (hlayer.symm.trans hnone)
  · refine (hlittle panelFormResolver (.request (.component "a.Form$1")) σ).adds.imp_right ?_
    rintro ⟨name, s, hname, -, -, hadded⟩
    have hclass : panelFormResolver.namedClass (.request (.component "a.Form$1")) =
        .ok { name := "a.Panel" } := named_form
    have hname := hname keepsKeys_panelForm
    rw [hclass] at hname
    obtain rfl := Except.ok.inj hname
    exact ⟨s, hadded⟩
  · obtain ⟨d, hd, hkey, hmodel, -⟩ := exists_resolve_panelForm
    have hrun := congrArg (·.2.cache.entries)
      (run_describe_of_new (σ := {}) named_form rfl rfl hd hkey)
    obtain ⟨ops, hops⟩ := hruns [.ask panelFormResolver (.request (.component "a.Form$1"))]
    have hkept : (Cache.empty.after ops).entries.get? "a.Panel" = some ⟨d, 0⟩ := by
      rw [← hops]
      exact (congrArg (·.get? "a.Panel") hrun).trans
        ((NameMap.get?_insert _ _ _ _).trans (if_pos rfl))
    exact ⟨⟨d, 0⟩, hrun, (hlaws ops).1.filed "a.Panel" _ hkept, hmodel⟩

end Resolver

end ComponentCatalog
