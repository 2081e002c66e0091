import ComponentCatalog.Description.Key

/-!
# What the path of a key tells

The path of a metadata resource is all that is seen of a key (`Key.descriptionPath`): the class of
the host with its dots made slashes and, after a dot, the suffix as it is, with any dots and slashes
in it.  Of keys that are a class or one step away from a class (`Key.IsShallow`), **two have one
path exactly if they are the same class, or the same suffix on the same host**
(`Key.descriptionPath_eq_iff`).  So neither is the metadata of a class ever taken for that of a
context, nor that of one context for that of another.

No dot is left of a class name, so the first dot of a path is where the class ends
(`ClassName.resourcePath_append_dot_inj`); and a name that has no slashes of its own can be read
back from its path (`ClassName.replace_replace`).
-/

set_option autoImplicit false

namespace ComponentCatalog

/-! ## Paths of classes -/

namespace ClassName

variable {a b : String} {rest rest' : List Char}

/-- What was replaced can be put back, unless the text had the new character before. -/
theorem replace_replace (old : Char) {new : Char} {text : String} (h : new ∉ text.toList) :
    replace new old (replace old new text) = text := by
  rw [replace, replace, String.toList_ofList, List.map_map, ← String.toList_inj,
    String.toList_ofList]
  calc text.toList.map _ = text.toList.map id := List.map_congr_left fun c hc ↦ ?_
    _ = text.toList := List.map_id _
  have hne : c ≠ new := fun heq ↦ h (heq ▸ hc)
  by_cases hold : c = old
  · simp [hold]
  · simp [hold, hne]

theorem resourcePath_injective (ha : '/' ∉ a.toList) (hb : '/' ∉ b.toList)
    (h : resourcePath a = resourcePath b) : a = b := by
  rw [← replace_replace '.' ha, ← replace_replace '.' hb]
  exact congrArg (replace '/' '.') h

theorem dot_not_mem_resourcePath (name : String) : '.' ∉ (resourcePath name).toList := by
  rw [resourcePath, replace, String.toList_ofList, List.mem_map]
  rintro ⟨c, -, hc⟩
  split at hc
  · exact absurd hc (by decide)
  · contradiction

/-- The class is read off a path that goes on with a dot. -/
theorem resourcePath_append_dot_inj (ha : '/' ∉ a.toList) (hb : '/' ∉ b.toList) :
    (resourcePath a).toList ++ '.' :: rest = (resourcePath b).toList ++ '.' :: rest' ↔
      a = b ∧ rest = rest' := by
  constructor
  · intro h
    obtain ⟨hpath, hrest⟩ :=
      Text.append_cons_inj_of_first (dot_not_mem_resourcePath a) (dot_not_mem_resourcePath b) h
    exact ⟨resourcePath_injective ha hb (String.toList_inj.mp hpath), hrest⟩
  · rintro ⟨rfl, rfl⟩
    rfl

end ClassName

/-! ## Paths of keys -/

namespace Key

/-- The key is a class or a context on a class, and the class has no slash in its name. -/
inductive IsShallow : Key → Prop where
  | pure {c : String} (hc : '/' ∉ c.toList) : IsShallow (.pure c)
  | contextual (c suffix : String) {host : String} (hhost : '/' ∉ host.toList) :
      IsShallow (.contextual c (.pure host) suffix)

/-- The keys are the same class, or the same context, whatever it is that they describe there. -/
inductive SamePlace : Key → Key → Prop where
  | pure (c : String) : SamePlace (.pure c) (.pure c)
  | contextual (c c' host suffix : String) :
      SamePlace (.contextual c (.pure host) suffix) (.contextual c' (.pure host) suffix)

theorem toList_descriptionPath_pure (c : String) :
    (pure c).descriptionPath.toList =
      (ClassName.resourcePath c).toList ++ '.' :: "wbp-component.xml".toList := by
  rw [descriptionPath, resourcePath, metadataPath, String.toList_append]
  rfl

theorem toList_descriptionPath_contextual (c host suffix : String) :
    (contextual c (.pure host) suffix).descriptionPath.toList =
      (ClassName.resourcePath host).toList ++ '.' :: (suffix.toList ++ metadataSuffix.toList) := by
  simp only [descriptionPath, resourcePath, metadataPath, String.toList_append, List.append_assoc]
  rfl

/-- What is left of a class's path after its first dot is too short to hold a suffix. -/
theorem append_metadataSuffix_ne (cs : List Char) :
    cs ++ metadataSuffix.toList ≠ "wbp-component.xml".toList := by
  intro h
  have hlength := congrArg List.length h
  rw [List.length_append] at hlength
  have hsuffix : metadataSuffix.toList.length = "wbp-component.xml".toList.length + 1 := rfl
  omega

theorem SamePlace.descriptionPath_eq {k k' : Key} (h : k.SamePlace k') :
    k.descriptionPath = k'.descriptionPath := by
  cases h <;> rfl

/-- On one host the path tells the suffix, whatever key the host has. -/
theorem descriptionPath_contextual_inj {c c' suffix suffix' : String} {host : Key} :
    (contextual c host suffix).descriptionPath = (contextual c' host suffix').descriptionPath ↔
      suffix = suffix' := by
  simp only [descriptionPath, resourcePath, metadataPath, String.append_left_inj,
    String.append_right_inj]

/-- **The path of a key tells its place.** -/
theorem descriptionPath_eq_iff {k k' : Key} (hk : k.IsShallow) (hk' : k'.IsShallow) :
    k.descriptionPath = k'.descriptionPath ↔ k.SamePlace k' := by
  refine ⟨fun h ↦ ?_, SamePlace.descriptionPath_eq⟩
  have hchars := congrArg String.toList h
  -- Both paths are cut at their first dots, where the classes end.
  cases hk with
  | pure hc =>
    rw [toList_descriptionPath_pure] at hchars
    cases hk' with
    | pure hc' =>
      rw [toList_descriptionPath_pure, ClassName.resourcePath_append_dot_inj hc hc'] at hchars
      obtain ⟨rfl, -⟩ := hchars
      exact .pure _
    | contextual c' suffix' hhost' =>
      rw [toList_descriptionPath_contextual,
        ClassName.resourcePath_append_dot_inj hc hhost'] at hchars
      exact absurd hchars.2.symm (append_metadataSuffix_ne _)
  | contextual c suffix hhost =>
    rw [toList_descriptionPath_contextual] at hchars
    cases hk' with
    | pure hc' =>
      rw [toList_descriptionPath_pure, ClassName.resourcePath_append_dot_inj hhost hc'] at hchars
      exact absurd hchars.2 (append_metadataSuffix_ne _)
    | contextual c' suffix' hhost' =>
      rw [toList_descriptionPath_contextual,
        ClassName.resourcePath_append_dot_inj hhost hhost'] at hchars
      obtain ⟨rfl, hsuffix⟩ := hchars
      obtain rfl := String.toList_inj.mp (List.append_cancel_right hsuffix)
      exact .contextual ..

/-- A context on the package of a class is not the class. -/
theorem descriptionPath_ne_of_package :
    IsShallow (contextual "a.C" (.pure "a") "b") ∧ IsShallow (.pure "a.b") ∧
      (contextual "a.C" (.pure "a") "b").descriptionPath ≠ (pure "a.b").descriptionPath := by
  have hcontext : IsShallow (contextual "a.C" (.pure "a") "b") := .contextual _ _ (by decide)
  have hclass : IsShallow (.pure "a.b") := .pure (by decide)
  exact ⟨hcontext, hclass, fun h ↦ nomatch (descriptionPath_eq_iff hcontext hclass).mp h⟩

end Key

end ComponentCatalog
