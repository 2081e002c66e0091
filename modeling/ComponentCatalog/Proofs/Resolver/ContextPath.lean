import Mathlib.Data.List.Basic
import ComponentCatalog.Proofs.Description.KeyPath
import ComponentCatalog.Resolver.Basic

/-!
# Metadata of methods

What a factory method creates, and what a method takes as a parameter, is described in a file that
is named after the signature of the method.  Brackets and commas cannot stand in the name and become
underscores, but **an underscore of the signature stays one**.  So the file of a method is not
always its own: `create(a,b)` and `create(a_b)` share one (`MethodForm.paths_collide`).

`MethodForm.path_eq_iff` says which methods share a file: those that fall into the same pieces where
underscores, too, set words apart (`MethodForm.pieces`); and of the parameters of such methods,
those with the same index.  So methods with no underscore in their signatures have files of their
own, overloads included.  A list without types is told from others because it still leaves a word,
the empty one, and no type is empty.
-/

set_option autoImplicit false

namespace ComponentCatalog

/-! ## Words of signatures -/

namespace Signature

/-- The characters that set the words of a signature apart. -/
def IsMark (c : Char) : Prop := c = '(' ∨ c = ',' ∨ c = ')'

instance : DecidablePred IsMark := fun c ↦
  inferInstanceAs (Decidable (c = '(' ∨ c = ',' ∨ c = ')'))

/-- A name or a type as it stands in a signature: an identifier, say, or several with dots between
them. -/
structure IsWord (word : String) : Prop where
  ne_empty : word ≠ ""
  no_marks : ∀ c ∈ word.toList, ¬IsMark c

instance (word : String) : Decidable (IsWord word) :=
  haveI : Decidable (∀ c ∈ word.toList, ¬IsMark c) := List.decidableBAll _ _
  decidable_of_iff (word ≠ "" ∧ ∀ c ∈ word.toList, ¬IsMark c)
    ⟨fun h ↦ ⟨h.1, h.2⟩, fun h ↦ ⟨h.1, h.2⟩⟩

theorem normalize_append (a b : String) : normalize (a ++ b) = normalize a ++ normalize b := by
  rw [normalize, String.toList_append, List.map_append, String.ofList_append]
  rfl

theorem normalize_of_no_marks {text : String} (h : ∀ c ∈ text.toList, ¬IsMark c) :
    normalize text = text := by
  rw [normalize, ← String.toList_inj, String.toList_ofList]
  calc text.toList.map _ = text.toList.map id := List.map_congr_left fun c hc ↦ if_neg (h c hc)
    _ = text.toList := List.map_id _

theorem normalize_intercalate {words : List String} (h : ∀ word ∈ words, IsWord word) :
    normalize (",".intercalate words) = "_".intercalate words := by
  induction words with
  | nil => rfl
  | cons word words ih =>
    obtain ⟨hword, hwords⟩ := List.forall_mem_cons.mp h
    cases words with
    | nil =>
      rw [String.intercalate_singleton, String.intercalate_singleton,
        normalize_of_no_marks hword.no_marks]
    | cons word' words =>
      have hcomma : normalize "," = "_" := rfl
      rw [String.intercalate_cons_cons, String.intercalate_cons_cons, normalize_append,
        normalize_append, normalize_of_no_marks hword.no_marks, hcomma, ih hwords]

end Signature

/-- A method, as far as signatures tell methods apart. -/
structure MethodForm where
  name : String
  types : List String
deriving DecidableEq

namespace MethodForm

open Signature

/-- The signature of the method. -/
def signature (m : MethodForm) : String := Signature.of m.name m.types

/-- What stands between the brackets of the signature: the types or, without any, an empty word. -/
def slots (m : MethodForm) : List String := if m.types = [] then [""] else m.types

/-- The words that the signature is made of. -/
def words (m : MethodForm) : List String := m.name :: m.slots

/-- What the words fall into at their underscores. -/
def pieces (m : MethodForm) : List String := m.words.flatMap (Text.split '_')

/-- The name and the types of the method can be told from the characters around them. -/
structure IsWellFormed (m : MethodForm) : Prop where
  name : IsWord m.name
  types : ∀ type ∈ m.types, IsWord type

instance (m : MethodForm) : Decidable m.IsWellFormed :=
  decidable_of_iff (IsWord m.name ∧ ∀ type ∈ m.types, IsWord type)
    ⟨fun h ↦ ⟨h.1, h.2⟩, fun h ↦ ⟨h.1, h.2⟩⟩

/-- No word of the signature has an underscore. -/
def HasNoUnderscore (m : MethodForm) : Prop := ∀ word ∈ m.words, '_' ∉ word.toList

instance (m : MethodForm) : Decidable m.HasNoUnderscore :=
  inferInstanceAs (Decidable (∀ word ∈ m.words, '_' ∉ word.toList))

variable {m n : MethodForm}

theorem slots_ne_nil (m : MethodForm) : m.slots ≠ [] := by
  rw [slots]
  split
  · exact List.cons_ne_nil _ _
  · assumption

theorem intercalate_slots (m : MethodForm) :
    "_".intercalate m.slots = "_".intercalate m.types := by
  rw [slots]
  split
  · rename_i hnil
    rw [hnil]
    rfl
  · rfl

theorem slots_ne_singleton (h : m.IsWellFormed) (htypes : m.types ≠ []) : m.slots ≠ [""] := by
  rw [slots, if_neg htypes]
  exact fun heq ↦ (h.types "" (heq ▸ List.mem_singleton_self "")).ne_empty rfl

theorem types_eq_of_slots_eq (hm : m.IsWellFormed) (hn : n.IsWellFormed)
    (h : m.slots = n.slots) : m.types = n.types := by
  -- The empty word that is left by a list without types is not a type of another list.
  by_cases hmnil : m.types = []
  · by_cases hnnil : n.types = []
    · rw [hmnil, hnnil]
    · refine absurd ?_ (slots_ne_singleton hn hnnil)
      rw [← h, slots, if_pos hmnil]
  · by_cases hnnil : n.types = []
    · refine absurd ?_ (slots_ne_singleton hm hmnil)
      rw [h, slots, if_pos hnnil]
    · rwa [slots, slots, if_neg hmnil, if_neg hnnil] at h

/-- The words of the signature tell the method. -/
theorem words_eq_iff (hm : m.IsWellFormed) (hn : n.IsWellFormed) : m.words = n.words ↔ m = n := by
  refine ⟨fun h ↦ ?_, congrArg words⟩
  obtain ⟨hname, hslots⟩ := List.cons.inj h
  obtain ⟨name, types⟩ := m
  obtain ⟨name', types'⟩ := n
  obtain rfl : name = name' := hname
  exact congrArg (MethodForm.mk name) (types_eq_of_slots_eq hm hn hslots)

theorem pieces_eq_words (h : m.HasNoUnderscore) : m.pieces = m.words := by
  have hsplit : ∀ word ∈ m.words, Text.split '_' word = [word] := fun word hword ↦
    Text.split_eq_singleton (h word hword)
  rw [pieces, List.flatMap_congr hsplit, List.flatMap_singleton']

/-! ## Names of files -/

/-- In the name of a file each word is followed by an underscore. -/
theorem normalize_signature (h : m.IsWellFormed) :
    normalize m.signature = "_".intercalate m.words ++ "_" := by
  have hopen : normalize "(" = "_" := rfl
  have hclose : normalize ")" = "_" := rfl
  rw [signature, Signature.of, normalize_append, normalize_append, normalize_append,
    normalize_of_no_marks h.name.no_marks, hopen, hclose, normalize_intercalate h.types, words,
    String.intercalate_cons_of_ne_nil (slots_ne_nil m), intercalate_slots]

/-- The names of the files of two methods are the same if the methods fall into the same pieces. -/
theorem normalize_eq_iff (hm : m.IsWellFormed) (hn : n.IsWellFormed) :
    normalize m.signature = normalize n.signature ↔ m.pieces = n.pieces := by
  have hsplit : ∀ k : MethodForm, Text.split '_' ("_".intercalate k.words) = k.pieces :=
    fun k ↦ Text.split_intercalate '_' (List.cons_ne_nil k.name k.slots)
  rw [normalize_signature hm, normalize_signature hn, String.append_left_inj, ← hsplit, ← hsplit]
  exact ⟨congrArg _, Text.split_injective⟩

end MethodForm

/-! ## Indices -/

namespace ParameterPlace

variable {i j : Nat} {p q : ParameterPlace}

theorem dot_not_mem_index (i : Nat) : '.' ∉ (toString i).toList := by
  have hdigits : (toString i).toList = Nat.toDigits 10 i := Nat.toList_repr
  rw [hdigits]
  exact fun hmem ↦ absurd (Nat.isDigit_of_mem_toDigits (by decide) (by decide) hmem) (by decide)

theorem eq_of_toString_eq (h : toString i = toString j) : i = j := by
  have hdigits : Nat.toDigits 10 i = Nat.toDigits 10 j := by
    rw [← Nat.toList_repr, ← Nat.toList_repr]
    exact congrArg String.toList h
  rw [← Nat.ofDigitChars_ten_toDigits (n := i), hdigits, Nat.ofDigitChars_ten_toDigits]

/-- The last dot of a suffix is the one before the index. -/
theorem suffix_eq_iff :
    p.suffix = q.suffix ↔
      Signature.normalize p.method = Signature.normalize q.method ∧ p.index = q.index := by
  constructor
  · intro h
    have hchars := congrArg String.toList h
    simp only [suffix, String.toList_append, List.append_assoc] at hchars
    obtain ⟨hmethod, hindex⟩ := Text.append_cons_inj_of_last (dot_not_mem_index p.index)
      (dot_not_mem_index q.index) hchars
    exact ⟨String.toList_inj.mp hmethod, eq_of_toString_eq (String.toList_inj.mp hindex)⟩
  · rintro ⟨hmethod, hindex⟩
    rw [suffix, suffix, hmethod, hindex]

end ParameterPlace

/-! ## Paths -/

namespace MethodForm

variable {m n : MethodForm}

/-- **Which methods have their metadata in one file.**  For methods of one class, whatever they
create: those that fall into the same pieces.  For parameters of methods of one host, whatever their
classes: those of such methods with the same index.  Without underscores this is the method itself,
and its parameter itself. -/
theorem path_eq_iff (hm : m.IsWellFormed) (hn : n.IsWellFormed) :
    (∀ declaringClass c c' : String,
      (FactoryMethod.key ⟨declaringClass, m.signature, c⟩).descriptionPath =
          (FactoryMethod.key ⟨declaringClass, n.signature, c'⟩).descriptionPath ↔
        m.pieces = n.pieces) ∧
    (∀ (host : Key) (i j : Nat) (c c' : String),
      (ParameterPlace.key ⟨m.signature, i, c⟩ host).descriptionPath =
          (ParameterPlace.key ⟨n.signature, j, c'⟩ host).descriptionPath ↔
        m.pieces = n.pieces ∧ i = j) ∧
    (m.HasNoUnderscore → n.HasNoUnderscore → (m.pieces = n.pieces ↔ m = n)) := by
  refine ⟨fun declaringClass c c' ↦ ?_, fun host i j c c' ↦ ?_, fun hmnone hnnone ↦ ?_⟩
  · rw [FactoryMethod.key, FactoryMethod.key, Key.descriptionPath_contextual_inj,
      normalize_eq_iff hm hn]
  · rw [ParameterPlace.key, ParameterPlace.key, Key.descriptionPath_contextual_inj,
      ParameterPlace.suffix_eq_iff, normalize_eq_iff hm hn]
  · rw [pieces_eq_words hmnone, pieces_eq_words hnnone, words_eq_iff hm hn]

/-- A method and an overload of it with types. -/
theorem path_eq_iff_overloads :
    let m : MethodForm := ⟨"create", []⟩
    let n : MethodForm := ⟨"create", ["a.Composite", "int"]⟩
    m.IsWellFormed ∧ n.IsWellFormed ∧ m.HasNoUnderscore ∧ n.HasNoUnderscore ∧
      (FactoryMethod.key ⟨"a.Forms", m.signature, "a.Form"⟩).descriptionPath ≠
        (FactoryMethod.key ⟨"a.Forms", n.signature, "a.Form"⟩).descriptionPath ∧
      (ParameterPlace.key ⟨m.signature, 1, "a.Form"⟩ (.pure "a.Forms")).descriptionPath ≠
        (ParameterPlace.key ⟨n.signature, 1, "a.Form"⟩ (.pure "a.Forms")).descriptionPath := by
  intro m n
  have hm : m.IsWellFormed := by decide
  have hn : n.IsWellFormed := by decide
  have hmnone : m.HasNoUnderscore := by decide
  have hnnone : n.HasNoUnderscore := by decide
  obtain ⟨hfactory, hparameter, hpieces⟩ := path_eq_iff hm hn
  have hne : m.pieces ≠ n.pieces := fun h ↦ absurd ((hpieces hmnone hnnone).mp h) (by decide)
  exact ⟨hm, hn, hmnone, hnnone, fun h ↦ hne ((hfactory _ _ _).mp h),
    fun h ↦ hne ((hparameter _ _ _ _ _).mp h).1⟩

/-- A method with two types and one whose only type has their names. -/
theorem paths_collide :
    let m : MethodForm := ⟨"create", ["a", "b"]⟩
    let n : MethodForm := ⟨"create", ["a_b"]⟩
    m.IsWellFormed ∧ n.IsWellFormed ∧ m.signature = "create(a,b)" ∧ n.signature = "create(a_b)" ∧
      (FactoryMethod.key ⟨"a.Forms", m.signature, "a.Form"⟩).descriptionPath =
        "a/Forms.create_a_b_.wbp-component.xml" ∧
      (FactoryMethod.key ⟨"a.Forms", n.signature, "a.Form"⟩).descriptionPath =
        "a/Forms.create_a_b_.wbp-component.xml" ∧
      (ParameterPlace.key ⟨m.signature, 0, "a.Form"⟩ (.pure "a.Forms")).descriptionPath =
        "a/Forms.create_a_b_.0.wbp-component.xml" ∧
      (ParameterPlace.key ⟨n.signature, 0, "a.Form"⟩ (.pure "a.Forms")).descriptionPath =
        "a/Forms.create_a_b_.0.wbp-component.xml" := by
  decide

end MethodForm

end ComponentCatalog
