import ComponentCatalog.Failure

/-!
# Outcomes

A step that can fail has an outcome, an `Except`.  Steps are put together by binds and folds, so
what is said of outcomes is shown once for those and then step by step: **when** something succeeds
(`bind_eq_ok_iff`), what a fold **keeps** (`foldlM_induction`), what a success **gives**
(`SucceedsIn`), and **how** something can fail (`FailsIn`).
-/

set_option autoImplicit false

namespace ComponentCatalog

universe u v w

variable {ε : Type u} {ε' : Type w} {α β : Type v}

/-! ## Success -/

@[simp] theorem ok_bind (a : α) (f : α → Except ε β) : Except.ok a >>= f = f a := rfl

theorem bind_eq_ok_iff {x : Except ε α} {f : α → Except ε β} {b : β} :
    x >>= f = .ok b ↔ ∃ a, x = .ok a ∧ f a = .ok b := by
  cases x <;> simp [bind, Except.bind]

theorem mapError_eq_ok_iff {x : Except ε α} {f : ε → ε'} {a : α} :
    x.mapError f = .ok a ↔ x = .ok a := by
  cases x with
  | error e => exact ⟨nofun, nofun⟩
  | ok b =>
    show Except.ok b = Except.ok a ↔ Except.ok b = Except.ok a
    rw [Except.ok.injEq, Except.ok.injEq]

theorem bind_eq_error_iff {x : Except ε α} {f : α → Except ε β} {e : ε} :
    x >>= f = .error e ↔ x = .error e ∨ ∃ a, x = .ok a ∧ f a = .error e := by
  cases x <;> simp [bind, Except.bind]

theorem mapError_eq_error_iff {x : Except ε α} {f : ε → ε'} {e' : ε'} :
    x.mapError f = .error e' ↔ ∃ e, x = .error e ∧ f e = e' := by
  cases x with
  | error e =>
    show Except.error (f e) = .error e' ↔ _
    simp
  | ok a => exact ⟨nofun, fun ⟨_, h, _⟩ ↦ nomatch h⟩

/-- What every step of a fold keeps, a fold that succeeds keeps. -/
theorem foldlM_induction {γ : Type w} {P : β → Prop} {step : β → γ → Except ε β} {l : List γ}
    (hstep : ∀ c ∈ l, ∀ b b', P b → step b c = .ok b' → P b') {b e : β} (hb : P b)
    (h : l.foldlM step b = .ok e) : P e := by
  induction l generalizing b with
  | nil =>
    obtain rfl := Except.ok.inj h
    exact hb
  | cons c l ih =>
    rw [List.foldlM_cons] at h
    obtain ⟨b', hc, h⟩ := bind_eq_ok_iff.mp h
    exact ih (fun c' hc' ↦ hstep c' (List.mem_cons_of_mem _ hc'))
      (hstep c List.mem_cons_self b b' hb hc) h

/-- If every member gives something in the end, every member gives something by itself. -/
theorem eq_filterMap_of_mapM {γ : Type w} {f : γ → Except ε β} {l : List γ} {bs : List β}
    (h : l.mapM f = .ok bs) :
    (∀ c ∈ l, ∃ b, f c = .ok b) ∧ bs = l.filterMap fun c ↦ (f c).toOption := by
  induction l generalizing bs with
  | nil => exact ⟨fun c hc ↦ absurd hc List.not_mem_nil, (Except.ok.inj h).symm⟩
  | cons c l ih =>
    rw [List.mapM_cons] at h
    obtain ⟨b, hb, h⟩ := bind_eq_ok_iff.mp h
    obtain ⟨rest, hrest, h⟩ := bind_eq_ok_iff.mp h
    obtain rfl := Except.ok.inj h
    obtain ⟨hall, rfl⟩ := ih hrest
    refine ⟨List.forall_mem_cons.mpr ⟨⟨b, hb⟩, hall⟩, ?_⟩
    rw [List.filterMap_cons, hb]
    rfl

/-- The first step that fails, on the members of `l` in order, fails with `e`. -/
def FirstFailure {γ : Type w} (step : β → γ → Except ε β) (b : β) (l : List γ) (e : ε) : Prop :=
  ∃ before c after m, l = before ++ c :: after ∧ before.foldlM step b = .ok m ∧ step m c = .error e

/-- A fold fails as the first step does that fails. -/
theorem foldlM_eq_error_iff {γ : Type w} {step : β → γ → Except ε β} {l : List γ} {b : β} {e : ε} :
    l.foldlM step b = .error e ↔ FirstFailure step b l e := by
  constructor
  · intro h
    induction l generalizing b with
    | nil => cases h
    | cons c l ih =>
      rw [List.foldlM_cons] at h
      cases hc : step b c with
      | error e' =>
        rw [hc] at h
        obtain rfl := Except.error.inj h
        exact ⟨[], c, l, b, rfl, rfl, hc⟩
      | ok b' =>
        rw [hc] at h
        obtain ⟨before, c', after, m, rfl, hm, hc'⟩ := ih h
        refine ⟨c :: before, c', after, m, rfl, ?_, hc'⟩
        rw [List.foldlM_cons, hc]
        exact hm
  · rintro ⟨before, c, after, m, rfl, hm, hc⟩
    rw [List.foldlM_append, hm]
    show List.foldlM step m (c :: after) = .error e
    rw [List.foldlM_cons, hc]
    rfl

/-- If the outcome is a success, its result satisfies `P`. -/
def SucceedsIn (P : α → Prop) (x : Except ε α) : Prop := ∀ a, x = .ok a → P a

section SucceedsIn

variable {P : α → Prop}

@[simp] theorem succeedsIn_ok {a : α} : SucceedsIn P (.ok a : Except ε α) ↔ P a :=
  ⟨fun h ↦ h a rfl, fun h _ ha ↦ Except.ok.inj ha ▸ h⟩

@[simp] theorem succeedsIn_error (e : ε) : SucceedsIn P (.error e) := fun _ h ↦ nomatch h

@[simp] theorem succeedsIn_bind_iff {Q : β → Prop} {x : Except ε α} {f : α → Except ε β} :
    SucceedsIn Q (x >>= f) ↔ ∀ a, x = .ok a → SucceedsIn Q (f a) := by
  cases x <;> simp [Bind.bind, Except.bind]

@[simp] theorem succeedsIn_pure {a : α} : SucceedsIn P (pure a : Except ε α) ↔ P a := succeedsIn_ok

@[simp] theorem succeedsIn_map_iff {Q : β → Prop} {x : Except ε α} {f : α → β} :
    SucceedsIn Q (f <$> x) ↔ SucceedsIn (fun a ↦ Q (f a)) x := by
  cases x <;> simp [Functor.map, Except.map]

theorem succeedsIn_of_forall (h : ∀ a, P a) (x : Except ε α) : SucceedsIn P x := fun a _ ↦ h a

theorem SucceedsIn.mono {Q : α → Prop} {x : Except ε α} (h : SucceedsIn P x)
    (hPQ : ∀ a, P a → Q a) : SucceedsIn Q x :=
  fun a ha ↦ hPQ a (h a ha)

end SucceedsIn

/-! ## Failure -/

/-- The failure of an outcome. -/
def failureOf? : Except ε α → Option ε
  | .ok _ => none
  | .error e => some e

theorem failureOf?_eq_some_iff {x : Except ε α} {e : ε} : failureOf? x = some e ↔ x = .error e := by
  cases x <;> simp [failureOf?]

/-- If the outcome is a failure, it satisfies `P`. -/
def FailsIn (P : ε → Prop) (x : Except ε α) : Prop := ∀ e, x = .error e → P e

section FailsIn

variable {P : ε → Prop}

@[simp] theorem failsIn_ok (a : α) : FailsIn P (.ok a) := fun _ h ↦ nomatch h

@[simp] theorem failsIn_pure (a : α) : FailsIn P (pure a : Except ε α) := failsIn_ok a

@[simp] theorem failsIn_error {e : ε} : FailsIn P (.error e : Except ε α) ↔ P e :=
  ⟨fun h ↦ h e rfl, fun h _ he ↦ Except.error.inj he ▸ h⟩

theorem FailsIn.mono {Q : ε → Prop} {x : Except ε α} (h : FailsIn P x) (hPQ : ∀ e, P e → Q e) :
    FailsIn Q x :=
  fun e he ↦ hPQ e (h e he)

@[simp] theorem failsIn_bind_iff {x : Except ε α} {f : α → Except ε β} :
    FailsIn P (x >>= f) ↔ FailsIn P x ∧ ∀ a, x = .ok a → FailsIn P (f a) := by
  cases x <;> simp [Bind.bind, Except.bind]

@[simp] theorem failsIn_map_iff {x : Except ε α} {f : α → β} :
    FailsIn P (f <$> x) ↔ FailsIn P x := by
  cases x <;> simp [Functor.map, Except.map]

theorem FailsIn.bind {x : Except ε α} {f : α → Except ε β} (hx : FailsIn P x)
    (hf : ∀ a, x = .ok a → FailsIn P (f a)) : FailsIn P (x >>= f) :=
  failsIn_bind_iff.mpr ⟨hx, hf⟩

theorem FailsIn.mapError {Q : ε' → Prop} {x : Except ε α} {f : ε → ε'} (hx : FailsIn P x)
    (hf : ∀ e, P e → Q (f e)) : FailsIn Q (x.mapError f) := by
  cases x with
  | error e => exact failsIn_error.mpr (hf e (hx e rfl))
  | ok a => exact failsIn_ok a

theorem FailsIn.foldlM {γ : Type w} {step : β → γ → Except ε β} {l : List γ}
    (h : ∀ c ∈ l, ∀ b, FailsIn P (step b c)) (b : β) : FailsIn P (l.foldlM step b) := by
  induction l generalizing b with
  | nil => exact failsIn_pure b
  | cons c l ih =>
    rw [List.foldlM_cons]
    exact (h c List.mem_cons_self b).bind fun b' _ ↦
      ih (fun c' hc' ↦ h c' (List.mem_cons_of_mem _ hc')) b'

end FailsIn

end ComponentCatalog
