/-!
# Splitting texts

A text splits at every occurrence of a separator, so that there is always one part more than there
are separators; joining the parts with the separator gives the text back.  Its characters are split
by `List.splitOn`, so what is said here of lists of characters is what the library does not say.
-/

set_option autoImplicit false

namespace ComponentCatalog.Text

/-- The parts of a text between the separators. -/
def split (separator : Char) (text : String) : List String :=
  (text.toList.splitOn separator).map String.ofList

section Characters

variable {separator : Char} {cs cs' part rest rest' : List Char}

theorem separator_not_mem (h : part ∈ cs.splitOn separator) : separator ∉ part := by
  induction cs generalizing part with
  | nil =>
    rw [List.splitOn_nil, List.mem_singleton] at h
    exact h ▸ List.not_mem_nil
  | cons c cs ih =>
    rw [List.splitOn_cons_eq_if_modifyHead] at h
    split at h
    · obtain rfl | h := List.mem_cons.mp h
      · exact List.not_mem_nil
      · exact ih h
    · rename_i hc
      obtain ⟨first, parts, hparts⟩ :=
        List.exists_cons_of_ne_nil (List.splitOn_ne_nil separator cs)
      rw [hparts] at h ih
      obtain rfl | h := List.mem_cons.mp h
      · have hne : separator ≠ c := fun heq ↦ hc (beq_iff_eq.mpr heq.symm)
        exact List.not_mem_cons_of_ne_of_not_mem hne (ih List.mem_cons_self)
      · exact ih (List.mem_cons_of_mem _ h)

/-- Lists that are joined split into all the parts that they split into. -/
theorem splitOn_intercalate_eq_flatMap (separator : Char) {css : List (List Char)} (h : css ≠ []) :
    ([separator].intercalate css).splitOn separator = css.flatMap (·.splitOn separator) := by
  induction css with
  | nil => exact absurd rfl h
  | cons cs css ih =>
    cases css with
    | nil => rw [List.intercalate_singleton, List.flatMap_singleton]
    | cons cs' css =>
      rw [List.intercalate_cons_cons, List.append_assoc, List.singleton_append,
        List.splitOn_append_cons_self, ih (List.cons_ne_nil _ _)]
      rfl

theorem splitOn_injective (h : cs.splitOn separator = cs'.splitOn separator) : cs = cs' := by
  have hjoined := congrArg [separator].intercalate h
  rwa [List.intercalate_splitOn, List.intercalate_splitOn] at hjoined

/-- The parts of `rest` are the last parts of what ends with `rest`, right after a separator. -/
theorem splitOn_suffix_iff :
    rest.splitOn separator <:+ cs.splitOn separator ↔ cs = rest ∨ separator :: rest <:+ cs := by
  constructor
  · rintro ⟨front, hfront⟩
    by_cases hnil : front = []
    · rw [hnil, List.nil_append] at hfront
      exact .inl (splitOn_injective hfront.symm)
    · have hparts : ∀ part ∈ front, separator ∉ part := fun part hpart ↦
        separator_not_mem (hfront ▸ List.mem_append_left _ hpart)
      have heq : ([separator].intercalate front ++ separator :: rest).splitOn separator =
          cs.splitOn separator := by
        rw [List.splitOn_append_cons_self, List.splitOn_intercalate separator hparts hnil, hfront]
      exact .inr ⟨_, splitOn_injective heq⟩
  · rintro (rfl | ⟨front, rfl⟩)
    · exact List.suffix_refl _
    · rw [List.splitOn_append_cons_self]
      exact List.suffix_append _ _

/-- What is before the first separator, and what is after it. -/
theorem append_cons_inj_of_first (hcs : separator ∉ cs) (hcs' : separator ∉ cs')
    (h : cs ++ separator :: rest = cs' ++ separator :: rest') : cs = cs' ∧ rest = rest' := by
  have hparts := congrArg (List.splitOn separator) h
  rw [List.splitOn_append_cons_self_of_not_mem hcs,
    List.splitOn_append_cons_self_of_not_mem hcs'] at hparts
  obtain ⟨hfirst, hrest⟩ := List.cons.inj hparts
  exact ⟨hfirst, splitOn_injective hrest⟩

/-- What is before the last separator, and what is after it. -/
theorem append_cons_inj_of_last (hrest : separator ∉ rest) (hrest' : separator ∉ rest')
    (h : cs ++ separator :: rest = cs' ++ separator :: rest') : cs = cs' ∧ rest = rest' := by
  have hparts := congrArg (List.splitOn separator) h
  rw [List.splitOn_append_cons_self, List.splitOn_append_cons_self,
    List.splitOn_eq_singleton hrest, List.splitOn_eq_singleton hrest'] at hparts
  obtain ⟨hcs, hlast⟩ := List.append_inj' hparts rfl
  exact ⟨splitOn_injective hcs, (List.cons.inj hlast).1⟩

end Characters

theorem map_toList_split (separator : Char) (text : String) :
    (split separator text).map String.toList = text.toList.splitOn separator := by
  simp [split, Function.comp_def]

/-- Joining the parts gives the text back. -/
theorem intercalate_split (separator : Char) (text : String) :
    (String.ofList [separator]).intercalate (split separator text) = text := by
  refine String.ext ?_
  rw [String.toList_intercalate, map_toList_split, String.toList_ofList, List.intercalate_splitOn]

/-- Texts that are joined split into all the parts that they split into. -/
theorem split_intercalate (separator : Char) {texts : List String} (h : texts ≠ []) :
    split separator ((String.ofList [separator]).intercalate texts) =
      texts.flatMap (split separator) := by
  have hne : texts.map String.toList ≠ [] := fun hnil ↦ h (List.map_eq_nil_iff.mp hnil)
  rw [split, String.toList_intercalate, String.toList_ofList,
    splitOn_intercalate_eq_flatMap separator hne, List.map_flatMap, List.flatMap_map]
  rfl

theorem split_eq_singleton {separator : Char} {text : String} (h : separator ∉ text.toList) :
    split separator text = [text] := by
  rw [split, List.splitOn_eq_singleton h, List.map_singleton, String.ofList_toList]

/-- Texts without separators are the parts of what they are joined to. -/
theorem split_intercalate_of_not_mem {separator : Char} {texts : List String}
    (h : ∀ text ∈ texts, separator ∉ text.toList) (hne : texts ≠ []) :
    split separator ((String.ofList [separator]).intercalate texts) = texts := by
  have hparts : ∀ cs ∈ texts.map String.toList, separator ∉ cs := by simpa using h
  rw [split, String.toList_intercalate, String.toList_ofList,
    List.splitOn_intercalate separator hparts (by simpa using hne)]
  simp [Function.comp_def]

theorem split_injective {separator : Char} {text text' : String}
    (h : split separator text = split separator text') : text = text' := by
  rw [← intercalate_split separator text, h, intercalate_split]

/-- The parts of `rest` are the last parts of what ends with `rest`, right after a separator. -/
theorem split_suffix_iff {separator : Char} {text rest : String} :
    split separator rest <:+ split separator text ↔
      text = rest ∨ separator :: rest.toList <:+ text.toList := by
  rw [← String.toList_inj, ← splitOn_suffix_iff, ← map_toList_split, ← map_toList_split]
  constructor
  · exact fun h ↦ h.map String.toList
  · intro h
    simpa using h.map String.ofList

theorem separator_not_mem_toList {separator : Char} {text part : String}
    (h : part ∈ split separator text) : separator ∉ part.toList := by
  have hchars : part.toList ∈ text.toList.splitOn separator :=
    map_toList_split separator text ▸ List.mem_map_of_mem h
  exact separator_not_mem hchars

/-- The list less a first part; nothing if it starts otherwise. -/
def afterPrefix? (first : List Char) (cs : List Char) : Option (List Char) :=
  if first.isPrefixOf cs then some (cs.drop first.length) else none

end ComponentCatalog.Text
