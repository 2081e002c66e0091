/-!
# Finite maps from names

`NameMap α` maps names to values.  The entries are kept in strictly ascending order of their names,
by code point, so there is **one representation for each map**: two maps that answer every look-up
alike are equal (`NameMap.ext_get?`), and the order in which names were inserted leaves no trace.

The view of a map is `get?`; `get?_insert`, `get?_overlay` and `get?_filter` say what each operation
does to it.
-/

set_option autoImplicit false

namespace ComponentCatalog

universe u

/-! ## Sorted entries -/

namespace NameMap

variable {α : Type u}

/-- The value filed under `name` in a list of entries. -/
def lookup (name : String) : List (String × α) → Option α
  | [] => none
  | e :: rest => if name = e.1 then some e.2 else lookup name rest

/-- Files `value` under `name` at its place in the order, in place of an older value. -/
def insertSorted (name : String) (value : α) : List (String × α) → List (String × α)
  | [] => [(name, value)]
  | e :: rest =>
    if name < e.1 then (name, value) :: e :: rest
    else if name = e.1 then (name, value) :: rest
    else e :: insertSorted name value rest

theorem of_mem_insertSorted {name : String} {value : α} {e : String × α} :
    ∀ {l : List (String × α)}, e ∈ insertSorted name value l → e = (name, value) ∨ e ∈ l
  | [], h => by simpa [insertSorted] using h
  | d :: rest, h => by
    unfold insertSorted at h
    split at h
    · simpa using h
    · split at h
      · rcases List.mem_cons.1 h with h | h
        · exact .inl h
        · exact .inr (List.mem_cons_of_mem _ h)
      · rcases List.mem_cons.1 h with h | h
        · exact .inr (h ▸ List.mem_cons_self)
        · exact (of_mem_insertSorted h).imp_right (List.mem_cons_of_mem _)

/-- Of two different names neither of which is smaller, the second is. -/
private theorem lt_of_not_lt {a b : String} (h : ¬a < b) (hne : a ≠ b) : b < a :=
  Decidable.byContradiction fun h' ↦ hne (String.le_antisymm h' h)

theorem pairwise_insertSorted {name : String} {value : α} :
    ∀ {l : List (String × α)}, l.Pairwise (·.1 < ·.1) →
      (insertSorted name value l).Pairwise (·.1 < ·.1)
  | [], _ => by simp [insertSorted]
  | d :: rest, h => by
    have ⟨hd, hrest⟩ := List.pairwise_cons.1 h
    unfold insertSorted
    split
    · rename_i hlt
      refine List.pairwise_cons.2 ⟨fun e he ↦ ?_, h⟩
      rcases List.mem_cons.1 he with rfl | he
      · exact hlt
      · exact String.lt_trans hlt (hd e he)
    · split
      · rename_i heq
        exact List.pairwise_cons.2 ⟨fun e he ↦ by simpa [heq] using hd e he, hrest⟩
      · rename_i hlt heq
        refine List.pairwise_cons.2 ⟨fun e he ↦ ?_, pairwise_insertSorted hrest⟩
        rcases of_mem_insertSorted he with rfl | he
        · exact lt_of_not_lt hlt heq
        · exact hd e he

theorem lookup_insertSorted {name other : String} {value : α} :
    ∀ {l : List (String × α)}, l.Pairwise (·.1 < ·.1) →
      lookup other (insertSorted name value l) = if other = name then some value else lookup other l
  | [], _ => by simp [insertSorted, lookup]
  | d :: rest, h => by
    have ⟨_, hrest⟩ := List.pairwise_cons.1 h
    unfold insertSorted
    split
    · simp [lookup]
    · split
      · rename_i heq
        by_cases h1 : other = name <;> simp_all [lookup]
      · rename_i heq
        simp only [lookup, lookup_insertSorted hrest]
        by_cases h1 : other = d.1
        · have : other ≠ name := fun h2 ↦ heq (h2 ▸ h1)
          simp_all
        · simp [h1]

theorem lookup_eq_none_of_forall_lt {name : String} :
    ∀ {l : List (String × α)}, (∀ e ∈ l, name < e.1) → lookup name l = none
  | [], _ => rfl
  | d :: rest, h => by
    have hd := h d List.mem_cons_self
    have hne : name ≠ d.1 := fun heq ↦ String.lt_irrefl _ (heq ▸ hd)
    simp only [lookup, hne, if_false]
    exact lookup_eq_none_of_forall_lt fun e he ↦ h e (List.mem_cons_of_mem _ he)

theorem lookup_eq_some_iff {name : String} {value : α} :
    ∀ {l : List (String × α)}, l.Pairwise (·.1 < ·.1) →
      (lookup name l = some value ↔ (name, value) ∈ l)
  | [], _ => by simp [lookup]
  | d :: rest, h => by
    have ⟨hd, hrest⟩ := List.pairwise_cons.1 h
    by_cases hn : name = d.1
    · subst hn
      simp only [lookup, if_true, List.mem_cons]
      constructor
      · intro h; injection h with h; exact .inl (by rw [← h])
      · rintro (h | h)
        · rw [← h]
        · exact absurd (hd _ h) (String.lt_irrefl _)
    · have : (name, value) ≠ d := fun h ↦ hn (by rw [← h])
      simp [lookup, hn, lookup_eq_some_iff hrest, this]

/-- Ascending lists that answer every look-up alike are equal. -/
theorem eq_of_lookup_eq :
    ∀ {l m : List (String × α)}, l.Pairwise (·.1 < ·.1) → m.Pairwise (·.1 < ·.1) →
      (∀ name, lookup name l = lookup name m) → l = m
  | [], [], _, _, _ => rfl
  | [], e :: m, _, _, h => by simpa [lookup] using h e.1
  | d :: l, [], _, _, h => by simpa [lookup] using h d.1
  | d :: l, e :: m, hl, hm, h => by
    have ⟨hd, hl'⟩ := List.pairwise_cons.1 hl
    have ⟨he, hm'⟩ := List.pairwise_cons.1 hm
    have hle : ∀ {x y : String × α} {l m : List (String × α)}, (x :: l).Pairwise (·.1 < ·.1) →
        (∀ e ∈ m, y.1 < e.1) → (∀ name, lookup name (x :: l) = lookup name (y :: m)) →
        ¬x.1 < y.1 := by
      intro x y l m _ hy hxy hlt
      have h1 := hxy x.1
      rw [lookup_eq_none_of_forall_lt (l := y :: m)] at h1
      · simp [lookup] at h1
      · intro e he
        rcases List.mem_cons.1 he with rfl | he
        · exact hlt
        · exact String.lt_trans hlt (hy e he)
    have hnames : d.1 = e.1 :=
      String.le_antisymm (hle hm hd fun name ↦ (h name).symm) (hle hl he h)
    have hvalues : d.2 = e.2 := by simpa [lookup, hnames] using h d.1
    have hde : d = e := Prod.ext hnames hvalues
    subst hde
    congr 1
    refine eq_of_lookup_eq hl' hm' fun name ↦ ?_
    by_cases hn : name = d.1
    · subst hn
      rw [lookup_eq_none_of_forall_lt hd, lookup_eq_none_of_forall_lt he]
    · simpa [lookup, hn] using h name

end NameMap

/-! ## The type -/

/-- A finite map from names to values, listed in strictly ascending order of the names. -/
structure NameMap (α : Type u) where
  /-- The names with their values, smallest name first. -/
  entries : List (String × α) := []
  /-- Each name stands before every greater one, so none stands twice. -/
  ascending : entries.Pairwise (·.1 < ·.1) := by simp
deriving DecidableEq

namespace NameMap

variable {α : Type u}

/-- The map without names. -/
def empty : NameMap α := {}

instance : Inhabited (NameMap α) := ⟨empty⟩

/-- The value of a name. -/
def get? (m : NameMap α) (name : String) : Option α := lookup name m.entries

/-- Whether a name has a value. -/
def contains (m : NameMap α) (name : String) : Bool := (m.get? name).isSome

/-- Gives `name` the value `value`, in place of any older one. -/
def insert (m : NameMap α) (name : String) (value : α) : NameMap α where
  entries := insertSorted name value m.entries
  ascending := pairwise_insertSorted m.ascending

/-- The entries that satisfy `keep`. -/
def filter (m : NameMap α) (keep : String → α → Bool) : NameMap α where
  entries := m.entries.filter fun e ↦ keep e.1 e.2
  ascending := m.ascending.filter _

/-- The number of names. -/
def size (m : NameMap α) : Nat := m.entries.length

/-- Whether there is no name. -/
def isEmpty (m : NameMap α) : Bool := m.entries.isEmpty

/-- The names in ascending order. -/
def names (m : NameMap α) : List String := m.entries.map (·.1)

/-- The values in ascending order of their names. -/
def values (m : NameMap α) : List α := m.entries.map (·.2)

/-- Both maps together; where both have a value for a name, that of `upper` counts. -/
def overlay (m upper : NameMap α) : NameMap α :=
  upper.entries.foldl (fun m e ↦ m.insert e.1 e.2) m

/-- The map of a list of entries; of several values for one name the last counts. -/
def ofList (l : List (String × α)) : NameMap α :=
  l.foldl (fun m e ↦ m.insert e.1 e.2) empty

/-! ## The view -/

@[simp] theorem get?_empty (name : String) : (empty : NameMap α).get? name = none := rfl

theorem get?_insert (m : NameMap α) (name other : String) (value : α) :
    (m.insert name value).get? other = if other = name then some value else m.get? other :=
  lookup_insertSorted m.ascending

@[simp] theorem get?_insert_self (m : NameMap α) (name : String) (value : α) :
    (m.insert name value).get? name = some value := by simp [get?_insert]

theorem get?_eq_some_iff (m : NameMap α) (name : String) (value : α) :
    m.get? name = some value ↔ (name, value) ∈ m.entries :=
  lookup_eq_some_iff m.ascending

/-- A map is its look-ups. -/
theorem ext_get? {m n : NameMap α} (h : ∀ name, m.get? name = n.get? name) : m = n := by
  cases m; cases n
  have := eq_of_lookup_eq ‹_› ‹_› h
  subst this
  rfl

private theorem get?_foldl_insert (name : String) :
    ∀ (l : List (String × α)) (m : NameMap α), l.Pairwise (·.1 < ·.1) →
      (l.foldl (fun m e ↦ m.insert e.1 e.2) m).get? name = (lookup name l).or (m.get? name)
  | [], m, _ => by simp [lookup]
  | e :: l, m, h => by
    have ⟨he, hl⟩ := List.pairwise_cons.1 h
    rw [List.foldl_cons, get?_foldl_insert name l _ hl, get?_insert]
    by_cases hn : name = e.1
    · subst hn
      simp [lookup, lookup_eq_none_of_forall_lt he]
    · simp [lookup, hn]

theorem get?_overlay (m upper : NameMap α) (name : String) :
    (m.overlay upper).get? name = (upper.get? name).or (m.get? name) :=
  get?_foldl_insert name upper.entries m upper.ascending

theorem get?_filter (m : NameMap α) (keep : String → α → Bool) (name : String) :
    (m.filter keep).get? name = (m.get? name).filter (keep name) := by
  apply Option.ext
  intro value
  rw [get?_eq_some_iff, Option.filter_eq_some_iff, get?_eq_some_iff]
  simp [filter]

end NameMap

end ComponentCatalog
