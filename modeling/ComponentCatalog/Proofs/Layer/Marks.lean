/-!
# Marks that nest

A rule is called twice for each element that it matches, when the element opens and when it closes.
So reading a document leaves a list of marks, two for each `Site`, and the calls of a site span what
stands between its two marks.

A list of marks is `Orderly` if spans relate to each other as sites do: the marks of a site that is
around another one are around the marks of that (`Around`), and of two sites that are not around
each other, one is done with before the other is begun (`Ahead`).  Order in a list is said by
sublists: `[a, b]` is a sublist if `a` stands before `b`.

There are two ways to make longer lists.  Marks can be put around marks of sites further inside
(`Orderly.enclose`), and lists of marks can be put one after the other when they are of sites in
different places (`Orderly.append`).
-/

set_option autoImplicit false

namespace ComponentCatalog

/-! ## Sites -/

/-- A rule at an element: the number of the rule, and the place of the element, which is the way to
it from the root by the numbers of the children. -/
structure Site where
  rule : Nat
  place : List Nat
deriving DecidableEq

namespace Site

/-- The site is around the other one: its element is around the other element, or it is the same
element and its rule comes first. -/
def Outer (s t : Site) : Prop :=
  s.place <+: t.place ∧ s.place ≠ t.place ∨ s.place = t.place ∧ s.rule < t.rule

/-- Neither element is in the other. -/
def Apart (s t : Site) : Prop := ¬s.place <+: t.place ∧ ¬t.place <+: s.place

variable {s t : Site}

theorem Outer.isPrefix (h : s.Outer t) : s.place <+: t.place := by
  rcases h with h | h
  · exact h.1
  · simp [h.1]

theorem Outer.asymm (h : s.Outer t) : ¬t.Outer s := by
  intro h'
  have hplace : s.place = t.place :=
    h.isPrefix.eq_of_length_le h'.isPrefix.length_le
  rcases h with h | h
  · exact h.2 hplace
  · rcases h' with h' | h'
    · exact h'.2 hplace.symm
    · omega

theorem Outer.ne (h : s.Outer t) : s ≠ t := by
  rintro rfl
  exact h.asymm h

theorem Apart.symm (h : s.Apart t) : t.Apart s := ⟨h.2, h.1⟩

theorem Apart.not_outer (h : s.Apart t) : ¬s.Outer t := fun houter ↦ h.1 houter.isPrefix

theorem Apart.ne (h : s.Apart t) : s ≠ t := by
  rintro rfl
  exact h.1 (List.prefix_refl _)

end Site

/-! ## Marks -/

/-- The opening or the closing of a site. -/
structure Mark where
  site : Site
  opens : Bool
deriving DecidableEq

/-- The marks of a site around other marks. -/
def Mark.enclose (s : Site) (inner : List Mark) : List Mark := ⟨s, true⟩ :: inner ++ [⟨s, false⟩]

/-- Both marks of `t` stand between those of `s`. -/
def Around (marks : List Mark) (s t : Site) : Prop :=
  [⟨s, true⟩, ⟨t, true⟩, ⟨t, false⟩, ⟨s, false⟩].Sublist marks

/-- Both marks of `s` stand before those of `t`. -/
def Ahead (marks : List Mark) (s t : Site) : Prop :=
  [⟨s, true⟩, ⟨s, false⟩, ⟨t, true⟩, ⟨t, false⟩].Sublist marks

/-- There is a mark of the site. -/
def Occurs (marks : List Mark) (s : Site) : Prop := ∃ opens, ⟨s, opens⟩ ∈ marks

theorem not_occurs_nil (s : Site) : ¬Occurs [] s := fun ⟨_, h⟩ ↦ List.not_mem_nil h

theorem occurs_append_iff {first second : List Mark} {s : Site} :
    Occurs (first ++ second) s ↔ Occurs first s ∨ Occurs second s := by
  simp only [Occurs, List.mem_append, exists_or]

theorem occurs_enclose_iff {s t : Site} {inner : List Mark} :
    Occurs (Mark.enclose s inner) t ↔ t = s ∨ Occurs inner t := by
  constructor
  · rintro ⟨opens, h⟩
    rcases List.mem_cons.mp h with h | h
    · exact .inl (Mark.mk.inj h).1
    · rcases List.mem_append.mp h with h | h
      · exact .inr ⟨opens, h⟩
      · exact .inl (Mark.mk.inj (List.mem_singleton.mp h)).1
  · rintro (rfl | ⟨opens, h⟩)
    · exact ⟨true, List.mem_cons_self⟩
    · exact ⟨opens, List.mem_cons_of_mem _ (List.mem_append_left _ h)⟩

theorem sublist_enclose (s : Site) (inner : List Mark) : inner.Sublist (Mark.enclose s inner) :=
  (List.sublist_append_left inner _).cons _

/-! ## Orderly lists -/

/-- Every site has two marks, the closing after the opening, and sites that are around each other
have their marks around each other, other sites one after the other. -/
structure Orderly (marks : List Mark) : Prop where
  nodup : marks.Nodup
  closes : ∀ {s}, Occurs marks s → [⟨s, true⟩, ⟨s, false⟩].Sublist marks
  around : ∀ {s t}, Occurs marks s → Occurs marks t → s.Outer t → Around marks s t
  ahead : ∀ {s t}, Occurs marks s → Occurs marks t → s ≠ t → ¬s.Outer t → ¬t.Outer s →
    Ahead marks s t ∨ Ahead marks t s

theorem orderly_nil : Orderly [] where
  nodup := List.nodup_nil
  closes h := absurd h (not_occurs_nil _)
  around h := absurd h (not_occurs_nil _)
  ahead h := absurd h (not_occurs_nil _)

namespace Orderly

variable {s t : Site} {inner first second : List Mark}

theorem mem (h : Orderly inner) (hs : Occurs inner s) (opens : Bool) : ⟨s, opens⟩ ∈ inner := by
  refine (h.closes hs).subset ?_
  cases opens <;> simp

theorem enclose (h : Orderly inner) (hs : ∀ t, Occurs inner t → s.Outer t) :
    Orderly (Mark.enclose s inner) where
  nodup := by
    have hnew : ∀ opens, ⟨s, opens⟩ ∉ inner := fun opens hmem ↦ (hs s ⟨opens, hmem⟩).ne rfl
    rw [Mark.enclose, List.cons_append, List.nodup_cons, List.nodup_append]
    refine ⟨by simp [hnew], h.nodup, by simp, fun m hm m' hm' ↦ ?_⟩
    obtain rfl := List.mem_singleton.mp hm'
    rintro rfl
    exact hnew false hm
  closes ht := by
    rcases occurs_enclose_iff.mp ht with rfl | ht
    · exact ((List.nil_sublist inner).append (List.Sublist.refl _)).cons_cons _
    · exact (h.closes ht).trans (sublist_enclose s inner)
  around {t u} ht hu houter := by
    rcases occurs_enclose_iff.mp ht with rfl | ht'
    · rcases occurs_enclose_iff.mp hu with rfl | hu'
      · exact absurd rfl houter.ne
      · exact ((h.closes hu').append (List.Sublist.refl _)).cons_cons _
    · rcases occurs_enclose_iff.mp hu with rfl | hu'
      · exact absurd houter (hs t ht').asymm
      · exact (h.around ht' hu' houter).trans (sublist_enclose s inner)
  ahead {t u} ht hu hne hout hout' := by
    rcases occurs_enclose_iff.mp ht with rfl | ht'
    · rcases occurs_enclose_iff.mp hu with rfl | hu'
      · exact absurd rfl hne
      · exact absurd (hs u hu') hout
    · rcases occurs_enclose_iff.mp hu with rfl | hu'
      · exact absurd (hs t ht') hout'
      · exact (h.ahead ht' hu' hne hout hout').imp (·.trans (sublist_enclose s inner))
          (·.trans (sublist_enclose s inner))

theorem append (h : Orderly first) (h' : Orderly second)
    (hapart : ∀ s t, Occurs first s → Occurs second t → s.Apart t) :
    Orderly (first ++ second) where
  nodup := by
    refine List.nodup_append.mpr ⟨h.nodup, h'.nodup, ?_⟩
    rintro m hm m' hm' rfl
    exact (hapart m.site m.site ⟨m.opens, hm⟩ ⟨m.opens, hm'⟩).ne rfl
  closes hs := by
    rcases occurs_append_iff.mp hs with hs | hs
    · exact (h.closes hs).trans (List.sublist_append_left _ _)
    · exact (h'.closes hs).trans (List.sublist_append_right _ _)
  around {s t} hs ht houter := by
    rcases occurs_append_iff.mp hs with hs | hs <;> rcases occurs_append_iff.mp ht with ht | ht
    · exact (h.around hs ht houter).trans (List.sublist_append_left _ _)
    · exact absurd houter (hapart s t hs ht).not_outer
    · exact absurd houter (hapart t s ht hs).symm.not_outer
    · exact (h'.around hs ht houter).trans (List.sublist_append_right _ _)
  ahead {s t} hs ht hne hout hout' := by
    rcases occurs_append_iff.mp hs with hs | hs <;> rcases occurs_append_iff.mp ht with ht | ht
    · exact (h.ahead hs ht hne hout hout').imp (·.trans (List.sublist_append_left _ _))
        (·.trans (List.sublist_append_left _ _))
    · exact .inl ((h.closes hs).append (h'.closes ht))
    · exact .inr ((h.closes ht).append (h'.closes hs))
    · exact (h'.ahead hs ht hne hout hout').imp (·.trans (List.sublist_append_right _ _))
        (·.trans (List.sublist_append_right _ _))

end Orderly

/-! ## The marks of one element -/

/-- The marks of some rules at an element, the first rule outermost, around the marks inside. -/
def Mark.encloseAll (place : List Nat) (numbers : List Nat) (inner : List Mark) : List Mark :=
  numbers.foldr (fun number ↦ Mark.enclose ⟨number, place⟩) inner

section EncloseAll

variable {place : List Nat} {numbers : List Nat} {inner : List Mark}

theorem occurs_encloseAll_iff {s : Site} :
    Occurs (Mark.encloseAll place numbers inner) s ↔
      s.place = place ∧ s.rule ∈ numbers ∨ Occurs inner s := by
  induction numbers with
  | nil => simp [Mark.encloseAll]
  | cons number numbers ih =>
    have hsite : s = ⟨number, place⟩ ↔ s.place = place ∧ s.rule = number := by
      constructor
      · rintro rfl
        exact ⟨rfl, rfl⟩
      · rintro ⟨rfl, rfl⟩
        rfl
    show Occurs (Mark.enclose ⟨number, place⟩ (Mark.encloseAll place numbers inner)) s ↔ _
    rw [occurs_enclose_iff, ih, hsite, List.mem_cons, and_or_left, or_assoc]

/-- Rules in the order of their numbers around what is further inside. -/
theorem Orderly.encloseAll (h : Orderly inner) (hnumbers : numbers.Pairwise (· < ·))
    (hinner : ∀ t, Occurs inner t → place <+: t.place ∧ place ≠ t.place) :
    Orderly (Mark.encloseAll place numbers inner) := by
  induction numbers with
  | nil => exact h
  | cons number numbers ih =>
    obtain ⟨hfirst, hrest⟩ := List.pairwise_cons.mp hnumbers
    refine (ih hrest).enclose fun t ht ↦ ?_
    rcases occurs_encloseAll_iff.mp ht with ⟨hplace, hrule⟩ | ht
    · exact .inr ⟨hplace.symm, hfirst _ hrule⟩
    · exact .inl (hinner t ht)

end EncloseAll

end ComponentCatalog
