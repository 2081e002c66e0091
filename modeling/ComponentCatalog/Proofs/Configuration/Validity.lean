import ComponentCatalog.Configuration.Basic
import Mathlib.Data.List.Nodup

/-!
# Valid configurations

Validation walks through the bundles of a configuration and remembers their identifiers.  What it
lets through are the configurations whose bundles are well named, each by itself, and have
**identifiers of which no two are the same** (`Configuration.validate_eq_ok_iff`).
-/

set_option autoImplicit false

namespace ComponentCatalog

/-- The identifier of the bundle is not blank, nor is a toolkit that is given. -/
structure BundleEntry.WellNamed (b : BundleEntry) : Prop where
  id : Text.isBlankText b.id = false
  toolkit : ∀ toolkit, b.toolkit? = some toolkit → Text.isBlankText toolkit = false

theorem BundleEntry.wellNamed_iff {b : BundleEntry} : b.WellNamed ↔
    Text.isBlankText b.id = false ∧ (b.toolkit?.map Text.isBlankText).getD false = false := by
  refine ⟨fun h ↦ ⟨h.id, ?_⟩, fun ⟨hid, htoolkit⟩ ↦ ⟨hid, fun toolkit heq ↦ ?_⟩⟩
  · cases heq : b.toolkit? with
    | none => rfl
    | some toolkit => exact h.toolkit toolkit heq
  · rw [heq] at htoolkit
    exact htoolkit

namespace Configuration

variable {seen : List String} {index : Nat} {b : BundleEntry} {bundles : List BundleEntry}

theorem bundleError?_eq_none_iff :
    bundleError? seen index b = none ↔ b.WellNamed ∧ b.id ∉ seen := by
  rw [BundleEntry.wellNamed_iff, bundleError?]
  by_cases hid : Text.isBlankText b.id
  · simp [hid]
  · by_cases hseen : b.id ∈ seen
    · simp [hid, hseen]
    · simp [hid, hseen]

/-- Nothing is wrong with bundles that are well named and whose identifiers differ from those seen
before and from one another. -/
theorem bundlesError?_eq_none_iff :
    bundlesError? seen index bundles = none ↔
      (∀ b ∈ bundles, b.WellNamed ∧ b.id ∉ seen) ∧ (bundles.map (·.id)).Nodup := by
  induction bundles generalizing seen index with
  | nil => simp [bundlesError?]
  | cons b rest ih =>
    have hnew : (∀ c ∈ rest, c.WellNamed ∧ c.id ∉ b.id :: seen) ↔
        (∀ c ∈ rest, c.WellNamed ∧ c.id ∉ seen) ∧ b.id ∉ rest.map (·.id) := by
      simp only [List.mem_cons, not_or, List.mem_map, not_exists, not_and]
      constructor
      · exact fun h ↦ ⟨fun c hc ↦ ⟨(h c hc).1, (h c hc).2.2⟩, fun c hc ↦ (h c hc).2.1⟩
      · exact fun ⟨h, hne⟩ c hc ↦ ⟨(h c hc).1, hne c hc, (h c hc).2⟩
    rw [bundlesError?, Option.or_eq_none_iff, bundleError?_eq_none_iff, ih, hnew,
      List.forall_mem_cons, List.map_cons, List.nodup_cons]
    simp only [and_assoc]

/-- What a configuration has to be like. -/
structure Valid (c : Configuration) : Prop where
  bundles : ∀ b ∈ c.bundles, b.WellNamed
  ids : (c.bundles.map (·.id)).Nodup

theorem validate_eq_ok_iff {c : Configuration} : c.validate = .ok () ↔ c.Valid := by
  have hvalid : bundlesError? [] 0 c.bundles = none ↔ c.Valid := by
    rw [bundlesError?_eq_none_iff]
    refine ⟨fun ⟨hbundles, hids⟩ ↦ ⟨fun b hb ↦ (hbundles b hb).1, hids⟩, fun h ↦ ⟨?_, h.ids⟩⟩
    exact fun b hb ↦ ⟨h.bundles b hb, List.not_mem_nil⟩
  rw [← hvalid, validate]
  cases bundlesError? [] 0 c.bundles with
  | none => simp
  | some e => simp

/-- A bundle of a valid configuration is known by its identifier. -/
theorem Valid.eq_of_id_eq {c : Configuration} (h : c.Valid) {a b : BundleEntry}
    (ha : a ∈ c.bundles) (hb : b ∈ c.bundles) (hid : a.id = b.id) : a = b :=
  List.inj_on_of_nodup_map h.ids ha hb hid

end Configuration

end ComponentCatalog
