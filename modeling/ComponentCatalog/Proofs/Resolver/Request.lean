import ComponentCatalog.Proofs.Outcome
import ComponentCatalog.Resolver.Session

/-!
# Requests

A resolver is asked for descriptions in four ways.  What it replies in a session is compared with
the **fresh** outcome, which is computed without any session: `Answers` says that an action gives an
outcome in every session that satisfies an invariant, and keeps the invariant.

Requests differ only in the layers they add and in the key they use.  So an invariant that holds for
descriptions of classes (`Resolver.describeClass`) holds for all requests (`answers_serve`), and
without a cache every session answers every request afresh (`reply_uncached`).
-/

set_option autoImplicit false

namespace ComponentCatalog

universe u

/-- What a resolver is asked for.  Hosts are any descriptions, so in particular those that were
given before. -/
inductive Request where
  | component (className : String)
  | factory (f : FactoryMethod)
  | exposed (host : Description) (method returnClass : String)
  | parameter (host : Description) (place : ParameterPlace)

namespace Resolver

variable (r : Resolver)

/-- Asks for a description. -/
def serve : Request → InSession SharedDescription
  | .component className => r.describe className
  | .factory f => r.describeFactory f
  | .exposed host method returnClass => r.describeExposed host method returnClass
  | .parameter host place => r.describeParameter host place

/-- What a request gives in a session, whoever shares the description. -/
def reply (q : Request) (σ : Session) : Except Failure Description :=
  ((r.serve q).run.run σ).1.map (·.description)

/-- The same resolver without a cache. -/
def uncached : Resolver := { r with options := { r.options with cacheEnabled := false } }

/-! ## Outcomes without a session -/

def freshClass (c : ClassDecl) : Except Failure Description := do
  let c ← r.classPath.normalize c
  r.resolve (.pure c.name) c []

def freshInContext (key : Key) : Except Failure Description := do
  let c ← r.classPath.load key.componentClass
  match r.contextLayer? key with
  | some layer => r.resolve key c [layer]
  | none => r.freshClass c

def fresh : Request → Except Failure Description
  | .component className => do r.freshClass (← r.classPath.load className)
  | .factory f => r.freshInContext f.key
  | .exposed host method returnClass =>
    r.freshInContext (.contextual returnClass host.key method)
  | .parameter host place => do
    let c ← r.classPath.load place.typeName
    match ← r.parameterLayers host place with
    | [] => r.freshClass c
    | layers => r.resolve (place.key host.key) c layers

end Resolver

/-! ## Answers -/

/-- One action after another: the session goes from one to the other, a failure ends both. -/
theorem InSession.run_bind {α β : Type} (x : InSession α) (f : α → InSession β) (σ : Session) :
    (x >>= f).run.run σ =
      match x.run.run σ with
      | (.ok a, σ') => (f a).run.run σ'
      | (.error failure, σ') => (.error failure, σ') := by
  simp only [ExceptT.run_bind, StateT.run_bind]
  rcases x.run.run σ with ⟨_ | a, σ'⟩ <;> rfl

/-- To look up a class counts the look-up. -/
theorem Session.run_lookUp_bind {α : Type} (className : String)
    (f : Option SharedDescription → InSession α) (σ : Session) :
    (lookUp className >>= f).run.run σ =
      (f (σ.cache.get className).1).run.run { σ with cache := (σ.cache.get className).2 } := by
  rw [InSession.run_bind]
  rfl

theorem Session.run_keep (s : SharedDescription) (σ : Session) :
    (keep s).run.run σ = (.ok (σ.cache.insert s).1, { σ with cache := (σ.cache.insert s).2 }) :=
  rfl

/-- In every session that satisfies `I`, the action gives the outcome and leaves such a session. -/
def Answers (I : Session → Prop) (action : InSession SharedDescription)
    (outcome : Except Failure Description) : Prop :=
  ∀ σ, I σ → (action.run.run σ).1.map (·.description) = outcome ∧ I (action.run.run σ).2

variable {I : Session → Prop}

/-- What has nothing to do with the session comes first. -/
theorem Answers.lift_bind {α : Type} {x : Except Failure α} {f : α → InSession SharedDescription}
    {g : α → Except Failure Description} (h : ∀ a, x = .ok a → Answers I (f a) (g a)) :
    Answers I (liftM x >>= f) (x >>= g) := by
  cases x with
  | error failure => exact fun σ hσ ↦ ⟨rfl, hσ⟩
  | ok a => exact h a rfl

namespace Resolver

variable {r : Resolver}

theorem run_make (key : Key) (c : ClassDecl) (additional : List LayerResource) (σ : Session) :
    (r.make key c additional).run.run σ =
      match r.resolve key c additional with
      | .ok d => (.ok ⟨d, σ.resolutions⟩, { σ with resolutions := σ.resolutions + 1 })
      | .error failure => (.error failure, σ) := by
  rw [make, InSession.run_bind]
  cases r.resolve key c additional <;> rfl

/-- The number of resolutions is all of the session that `make` changes. -/
theorem answers_make (hcount : ∀ σ : Session, ∀ n, I σ → I { σ with resolutions := n }) (key : Key)
    (c : ClassDecl) (additional : List LayerResource) :
    Answers I (r.make key c additional) (r.resolve key c additional) := by
  intro σ hσ
  rw [run_make]
  cases r.resolve key c additional with
  | error failure => exact ⟨rfl, hσ⟩
  | ok d => exact ⟨rfl, hcount σ _ hσ⟩

section Requests

variable (hcount : ∀ σ : Session, ∀ n, I σ → I { σ with resolutions := n })
  (hclass : ∀ name c, r.classPath.load name = .ok c →
    Answers I (r.describeClass c) (r.freshClass c))

include hcount hclass

theorem answers_describeInContext (key : Key) :
    Answers I (r.describeInContext key) (r.freshInContext key) := by
  refine Answers.lift_bind fun c hc ↦ ?_
  cases r.contextLayer? key with
  | some layer => exact answers_make hcount key c [layer]
  | none => exact hclass _ c hc

/-- **An invariant for classes is one for all requests.** -/
theorem answers_serve (q : Request) : Answers I (r.serve q) (r.fresh q) := by
  cases q with
  | component className => exact Answers.lift_bind fun c hc ↦ hclass className c hc
  | factory f => exact answers_describeInContext hcount hclass f.key
  | exposed host method returnClass => exact answers_describeInContext hcount hclass _
  | parameter host place =>
    refine Answers.lift_bind fun c hc ↦ Answers.lift_bind fun layers _ ↦ ?_
    cases layers with
    | nil => exact hclass _ c hc
    | cons layer layers => exact answers_make hcount _ c _

end Requests

/-! ## Without a cache -/

theorem answers_describeClass_of_not_cacheEnabled (h : r.options.cacheEnabled = false)
    (c : ClassDecl) : Answers (fun _ ↦ True) (r.describeClass c) (r.freshClass c) := by
  refine Answers.lift_bind fun c _ ↦ ?_
  rw [h]
  exact answers_make (fun _ _ _ ↦ trivial) _ c []

/-- Without a cache every session answers afresh. -/
theorem reply_of_not_cacheEnabled (h : r.options.cacheEnabled = false) (q : Request)
    (σ : Session) : r.reply q σ = r.fresh q :=
  (answers_serve (fun _ _ _ ↦ trivial)
    (fun _ c _ ↦ answers_describeClass_of_not_cacheEnabled h c) q σ trivial).1

/-- A fresh outcome does not depend on whether there is a cache. -/
theorem reply_uncached (r : Resolver) (q : Request) (σ : Session) :
    r.uncached.reply q σ = r.fresh q :=
  reply_of_not_cacheEnabled rfl q σ

end Resolver

end ComponentCatalog
