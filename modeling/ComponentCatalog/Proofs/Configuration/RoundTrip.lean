import ComponentCatalog.Configuration.Document
import ComponentCatalog.Proofs.Configuration.Validity

/-!
# Writing a configuration and reading it back

The writer leaves out lists without items and toolkits that are not given, and it chooses the style
of each text; the reader fills in what is missing and refuses fields that it does not know.  That
**the nodes that are written are read as the same configuration** (`Configuration.ofNode?_toNode`)
rests on three things: a text is never written so that it could stand for something else
(`isNothing?_ofText`), the fields that are written are among those that are known, in the same order
(`asRecord?_of_sublist`), and each field is found in what is written or left out because it has the
value that is filled in (`optionalField_items`).

From there on the outcome is that of validation.  It walks through the bundles and remembers their
identifiers, so what it reports is **the fault at the smallest index that has one**
(`Configuration.validate_eq_error_iff`), where a fault of a bundle is stated by itself: what is
wrong with it after the bundles before it.

Of the text between the two, all that is assumed is that the YAML reader undoes the printer on the
node in question.
-/

set_option autoImplicit false

namespace ComponentCatalog

open Yaml

universe u

/-! ## Scalars -/

namespace Yaml

/-- A text that stands for something else when it is written plain is not written plain. -/
theorem isAmbiguous_of_styleOf_eq_plain {text : String} (h : styleOf text = .plain) :
    PlainScalar.isAmbiguous text = false := by
  rw [styleOf] at h
  split at h
  · split at h <;> cases h
  · split at h
    · rename_i hplain
      rw [Bool.and_eq_true, Bool.not_eq_true'] at hplain
      exact hplain.2
    · split at h <;> cases h

namespace Node

theorem asText?_ofText (text : String) : (ofText text).asText? = some text := rfl

theorem isNothing?_ofText (text : String) : (ofText text).isNothing? = some false := by
  rw [ofText]
  cases hstyle : styleOf text with
  | plain =>
    have hambiguous := isAmbiguous_of_styleOf_eq_plain hstyle
    simp only [PlainScalar.isAmbiguous, Bool.or_eq_false_iff] at hambiguous
    obtain ⟨⟨⟨⟨⟨hempty, hnull⟩, -⟩, -⟩, -⟩, -⟩ := hambiguous
    rw [isNothing?, hempty, hnull]
    rfl
  | singleQuoted => rfl
  | doubleQuoted => rfl
  | literal => rfl
  | folded => rfl

theorem asTruth?_ofBool (b : Bool) : (ofBool b).asTruth? = some b := by
  cases b with
  | false => decide +kernel
  | true => decide +kernel

theorem isNothing?_ofBool (b : Bool) : (ofBool b).isNothing? = some false := by
  cases b with
  | false => decide +kernel
  | true => decide +kernel

theorem asOptional?_eq_some {α : Type u} {read : Node → Option α} {n : Node} {a : α}
    (hn : n.isNothing? = some false) (h : read n = some a) :
    n.asOptional? read = some (some a) := by
  rw [asOptional?, hn, h]
  rfl

theorem asList?_sequence {α : Type u} {read : Node → Option α} {write : α → Node}
    (h : ∀ a, read (write a) = some a) (items : List α) :
    (sequence (items.map write)).asList? read = some items := by
  show (items.map write).mapM read = some items
  induction items with
  | nil => rfl
  | cons a rest ih =>
    rw [List.map_cons, List.mapM_cons, h a, ih]
    rfl

end Node

end Yaml

/-! ## Records -/

/-- A record with the fields. -/
def recordNode (fields : List (String × Node)) : Node :=
  .mapping (fields.map fun (name, value) ↦ fieldNode name value)

theorem mapM_fieldNode (fields : List (String × Node)) :
    (fields.map fun (name, value) ↦ fieldNode name value).mapM
      (fun (key, value) ↦ key.asText?.map (·, value)) = some fields := by
  induction fields with
  | nil => rfl
  | cons field rest ih =>
    rw [List.map_cons, List.mapM_cons, ih]
    rfl

/-- A record is read if its fields are among those that are known, in their order. -/
theorem asRecord?_of_sublist {names : List String} {fields : List (String × Node)}
    (hnames : names.Nodup) (h : (fields.map (·.1)).Sublist names) :
    (recordNode fields).asRecord? names = some fields := by
  have hknown : fields.all (fun field ↦ names.contains field.1) = true := by
    refine List.all_eq_true.mpr fun field hfield ↦ ?_
    exact List.contains_iff_mem.mpr (h.subset (List.mem_map_of_mem hfield))
  have honce : names.all (fun name ↦ (fields.filter (·.1 == name)).length ≤ 1) = true := by
    refine List.all_eq_true.mpr fun name _ ↦ decide_eq_true ?_
    have hcount := List.nodup_iff_count_le_one.mp (h.nodup hnames) name
    rwa [List.count, List.countP_map, List.countP_eq_length_filter] at hcount
  rw [recordNode, Node.asRecord?]
  simp only [Option.bind_eq_bind, Option.bind_some, mapM_fieldNode]
  exact if_pos ⟨hknown, honce⟩

/-- The field of a list, which is left out if there are no items. -/
def itemsField (name : String) (items : List Node) : List (String × Node) :=
  if items.isEmpty then [] else [(name, .sequence items)]

theorem map_itemsField {name : String} {items : List Node} :
    (itemsField name items).map (fun (name, value) ↦ fieldNode name value) =
      listField name items := by
  rw [itemsField, listField]
  split <;> rfl

theorem names_itemsField {name : String} {items : List Node} :
    ((itemsField name items).map (·.1)).Sublist [name] := by
  rw [itemsField]
  split
  · exact List.nil_sublist _
  · exact List.Sublist.refl _

theorem lookup_itemsField_of_ne {name other : String} {items : List Node} (h : other ≠ name) :
    (itemsField name items).lookup other = none := by
  rw [itemsField]
  split
  · rfl
  · rw [List.lookup_cons, beq_false_of_ne h]
    rfl

/-- A list is read back from its field, or from its absence if it has no items. -/
theorem optionalField_items {α : Type u} {fields : List (String × Node)} {name : String}
    {read : Node → Option α} {write : α → Node} {items : List α}
    (hwrite : ∀ a, read (write a) = some a)
    (h : fields.lookup name = (itemsField name (items.map write)).lookup name) :
    optionalField fields name [] (·.asList? read) = some items := by
  rw [optionalField, h]
  cases items with
  | nil => rfl
  | cons a rest =>
    rw [itemsField, List.map_cons, List.isEmpty_cons, if_neg Bool.false_ne_true,
      List.lookup_cons_self]
    exact Node.asList?_sequence hwrite (a :: rest)

/-- A value that may be missing is read back from its field. -/
theorem optionalField_given {α : Type u} {fields : List (String × Node)} {name : String}
    {read : Node → Option α} {n : Node} {a : α} (h : fields.lookup name = some n)
    (hn : n.isNothing? = some false) (hread : read n = some a) :
    optionalField fields name none (·.asOptional? read) = some (some a) := by
  rw [optionalField, h]
  exact Node.asOptional?_eq_some hn hread

/-- The fields of a bundle. -/
def BundleEntry.fields (b : BundleEntry) : List (String × Node) :=
  [("id", .ofText b.id), ("path", .ofText b.path)] ++
    (b.toolkit?.map fun toolkit ↦ ("toolkit", .ofText toolkit)).toList

theorem BundleEntry.ofNode?_toNode (b : BundleEntry) : ofNode? b.toNode = some b := by
  have hnode : b.toNode = recordNode b.fields := by
    rw [toNode, recordNode, fields]
    cases b.toolkit? <;> rfl
  have hnames : (b.fields.map (·.1)).Sublist ["id", "path", "toolkit"] := by
    rw [fields]
    cases b.toolkit? with
    | none => exact (List.sublist_append_left ["id", "path"] ["toolkit"] :)
    | some toolkit => exact List.Sublist.refl _
  have htoolkit : optionalField b.fields "toolkit" none
      (·.asOptional? (·.asText?)) = some b.toolkit? := by
    rw [fields]
    cases b.toolkit? with
    | none => rfl
    | some toolkit => exact optionalField_given rfl (Node.isNothing?_ofText toolkit) rfl
  rw [hnode, ofNode?, asRecord?_of_sublist (by decide) hnames]
  simp only [Option.bind_eq_bind, Option.bind_some, htoolkit]
  rfl

/-- The fields of the choices for keeping descriptions. -/
def CacheOptions.fields (c : CacheOptions) : List (String × Node) :=
  [("enabled", .ofBool c.enabled), ("honor_package_markers", .ofBool c.honorPackageMarkers)]

theorem CacheOptions.ofNode?_toNode (c : CacheOptions) : ofNode? c.toNode = some c := by
  have hnode : c.toNode = recordNode c.fields := rfl
  have hnames : (c.fields.map (·.1)).Sublist ["enabled", "honor_package_markers"] :=
    List.Sublist.refl _
  have henabled : requiredField c.fields "enabled" (·.asTruth?) = some c.enabled :=
    Node.asTruth?_ofBool _
  have hmarkers : requiredField c.fields "honor_package_markers" (·.asTruth?) =
      some c.honorPackageMarkers := Node.asTruth?_ofBool _
  rw [hnode, ofNode?, asRecord?_of_sublist (by decide) hnames]
  simp only [Option.bind_eq_bind, Option.bind_some, henabled, hmarkers]
  rfl

namespace Configuration

/-- The fields of a configuration. -/
def fields (c : Configuration) : List (String × Node) :=
  [("version", .ofNat 1)] ++ itemsField "bundles" (c.bundles.map (·.toNode)) ++
    itemsField "project_roots" (c.projectRoots.map Node.ofText) ++
    itemsField "class_models" (c.classModels.map Node.ofText) ++
    [("cache", c.cache.toNode), ("strict_members", .ofBool c.strictMembers)]

theorem toNode_eq (c : Configuration) : c.toNode = recordNode c.fields := by
  rw [toNode, recordNode, fields]
  simp only [List.map_append, map_itemsField]
  rfl

theorem names_fields (c : Configuration) : (c.fields.map (·.1)).Sublist
    ["version", "bundles", "project_roots", "class_models", "cache", "strict_members"] := by
  simp only [fields, List.map_append]
  exact ((((List.Sublist.refl ["version"]).append names_itemsField).append
    names_itemsField).append names_itemsField).append (List.Sublist.refl _)

/-- **What is written is read.**  No field is lost, whichever are left out. -/
theorem ofNode?_toNode (c : Configuration) : ofNode? c.toNode = some (some 1, c) := by
  have hversion : optionalField c.fields "version" none (·.asOptional? (·.asNatural?)) =
      some (some 1) :=
    optionalField_given (n := .ofNat 1) rfl (by decide +kernel) (by decide +kernel)
  have hbundles : optionalField c.fields "bundles" [] (·.asList? BundleEntry.ofNode?) =
      some c.bundles := by
    refine optionalField_items BundleEntry.ofNode?_toNode ?_
    simp [fields, List.lookup_append, List.lookup_cons, lookup_itemsField_of_ne]
  have hroots : optionalField c.fields "project_roots" [] (·.asList? (·.asText?)) =
      some c.projectRoots := by
    refine optionalField_items Node.asText?_ofText ?_
    simp [fields, List.lookup_append, List.lookup_cons, lookup_itemsField_of_ne]
  have hmodels : optionalField c.fields "class_models" [] (·.asList? (·.asText?)) =
      some c.classModels := by
    refine optionalField_items Node.asText?_ofText ?_
    simp [fields, List.lookup_append, List.lookup_cons, lookup_itemsField_of_ne]
  have hcache : optionalField c.fields "cache" none (·.asOptional? CacheOptions.ofNode?) =
      some (some c.cache) := by
    have hlookup : c.fields.lookup "cache" = some c.cache.toNode := by
      simp [fields, List.lookup_append, List.lookup_cons, lookup_itemsField_of_ne]
    exact optionalField_given hlookup rfl c.cache.ofNode?_toNode
  have hstrict : optionalField c.fields "strict_members" none (·.asOptional? (·.asTruth?)) =
      some (some c.strictMembers) := by
    have hlookup : c.fields.lookup "strict_members" = some (.ofBool c.strictMembers) := by
      simp [fields, List.lookup_append, List.lookup_cons, lookup_itemsField_of_ne]
    exact optionalField_given hlookup (Node.isNothing?_ofBool _) (Node.asTruth?_ofBool _)
  rw [toNode_eq, ofNode?, asRecord?_of_sublist (by decide) c.names_fields]
  simp only [Option.bind_eq_bind, Option.bind_some, hversion, hbundles, hroots, hmodels, hcache,
    hstrict]
  rfl

theorem ofNode_toNode (c : Configuration) : ofNode c.toNode = c.validate.map fun _ ↦ c := by
  rw [ofNode, ofNode?_toNode]
  cases hvalid : c.validate with
  | ok => simp [supportedVersions, hvalid, Except.map]
  | error e => simp [supportedVersions, hvalid, Except.map]

theorem read_write {c : Configuration} (h : Yaml.read c.write = some c.toNode) :
    read c.write = c.validate.map fun _ ↦ c := by
  rw [read, h]
  exact ofNode_toNode c

/-! ## What validation reports -/

/-- What is wrong with a bundle at an index, after bundles with the identifiers `seen`.  A blank
identifier counts before one that is used twice, and this before a blank toolkit. -/
inductive Fault (seen : List String) (index : Nat) (b : BundleEntry) : ConfigurationError → Prop
  | blankId (hid : Text.isBlankText b.id = true) :
    Fault seen index b (invalidBundle index "id" "must not be empty")
  | duplicateId (hid : Text.isBlankText b.id = false) (hseen : b.id ∈ seen) :
    Fault seen index b (invalidBundle index "id" ("duplicate bundle id '" ++ b.id ++ "'"))
  | blankToolkit (hid : Text.isBlankText b.id = false) (hnew : b.id ∉ seen) {toolkit : String}
    (htoolkit : b.toolkit? = some toolkit) (hblank : Text.isBlankText toolkit = true) :
    Fault seen index b (invalidBundle index "toolkit" "must not be blank")

variable {seen : List String} {index : Nat} {b : BundleEntry} {bundles : List BundleEntry}
  {e : ConfigurationError} {c : Configuration}

theorem bundleError?_eq_some_iff : bundleError? seen index b = some e ↔ Fault seen index b e := by
  constructor
  · intro h
    rw [bundleError?] at h
    split at h
    · rename_i hid
      obtain rfl := Option.some.inj h
      exact .blankId hid
    · rename_i hid
      split at h
      · rename_i hseen
        obtain rfl := Option.some.inj h
        exact .duplicateId (eq_false_of_ne_true hid) (List.contains_iff_mem.mp hseen)
      · rename_i hnew
        split at h
        · rename_i hblank
          obtain rfl := Option.some.inj h
          obtain ⟨toolkit, htoolkit⟩ : ∃ toolkit, b.toolkit? = some toolkit := by
            refine Option.ne_none_iff_exists'.mp fun hnone ↦ ?_
            rw [hnone] at hblank
            cases hblank
          rw [htoolkit] at hblank
          refine .blankToolkit (eq_false_of_ne_true hid) ?_ htoolkit hblank
          exact fun hmem ↦ hnew (List.contains_iff_mem.mpr hmem)
        · cases h
  · intro h
    cases h with
    | blankId hid => rw [bundleError?, if_pos hid]
    | duplicateId hid hseen =>
      rw [bundleError?, hid, if_neg Bool.false_ne_true, if_pos (List.contains_iff_mem.mpr hseen)]
    | blankToolkit hid hnew htoolkit hblank =>
      rw [bundleError?, hid, if_neg Bool.false_ne_true,
        if_neg fun h ↦ hnew (List.contains_iff_mem.mp h), htoolkit]
      exact if_pos hblank

/-- Whether a bundle has a fault depends on which identifiers were seen, not on their order. -/
theorem Fault.congr {seen' : List String} (hseen : ∀ id, id ∈ seen ↔ id ∈ seen')
    (h : Fault seen index b e) : Fault seen' index b e := by
  cases h with
  | blankId hid => exact .blankId hid
  | duplicateId hid hmem => exact .duplicateId hid ((hseen _).mp hmem)
  | blankToolkit hid hnew htoolkit hblank =>
    exact .blankToolkit hid (fun hmem ↦ hnew ((hseen _).mpr hmem)) htoolkit hblank

/-- The same of the bundle at a place in a list whose first bundle has the index `start`. -/
def FaultAmong (seen : List String) (start : Nat) (bundles : List BundleEntry) (i : Nat)
    (e : ConfigurationError) : Prop :=
  ∃ b, bundles[i]? = some b ∧ Fault ((bundles.take i).map (·.id) ++ seen) (start + i) b e

theorem faultAmong_zero : FaultAmong seen index (b :: bundles) 0 e ↔ Fault seen index b e := by
  simp [FaultAmong]

theorem faultAmong_succ {i : Nat} : FaultAmong seen index (b :: bundles) (i + 1) e ↔
    FaultAmong (b.id :: seen) (index + 1) bundles i e := by
  have hseen : ∀ id, id ∈ ((b :: bundles).take (i + 1)).map (·.id) ++ seen ↔
      id ∈ (bundles.take i).map (·.id) ++ b.id :: seen := by
    intro id
    simp only [List.take_succ_cons, List.map_cons, List.cons_append, List.mem_cons,
      List.mem_append]
    exact or_left_comm
  rw [FaultAmong, FaultAmong, List.getElem?_cons_succ, Nat.add_right_comm index 1 i]
  refine exists_congr fun c ↦ and_congr_right fun _ ↦ ⟨?_, ?_⟩
  · exact Fault.congr hseen
  · exact Fault.congr fun id ↦ (hseen id).symm

/-- What is reported is the first fault: the walk goes on only where there was none. -/
theorem bundlesError?_eq_some_iff : bundlesError? seen index bundles = some e ↔
    ∃ i, FaultAmong seen index bundles i e ∧
      ∀ j < i, ∀ e', ¬FaultAmong seen index bundles j e' := by
  induction bundles generalizing seen index with
  | nil => simp [bundlesError?, FaultAmong]
  | cons b rest ih =>
    rw [← Nat.or_exists_add_one]
    simp only [Nat.forall_lt_succ_left, faultAmong_zero, faultAmong_succ, Nat.not_lt_zero,
      false_imp_iff, implies_true, and_true]
    cases hb : bundleError? seen index b with
    | some e' =>
      rw [bundlesError?, hb, Option.some_or, ← hb, bundleError?_eq_some_iff, or_iff_left]
      rintro ⟨i, -, hnone, -⟩
      exact hnone e' (bundleError?_eq_some_iff.mp hb)
    | none =>
      have hnone : ∀ e', ¬Fault seen index b e' := by
        intro e' hfault
        rw [← bundleError?_eq_some_iff, hb] at hfault
        cases hfault
      rw [bundlesError?, hb, Option.none_or, ih, or_iff_right (hnone e)]
      exact exists_congr fun i ↦ and_congr_right fun _ ↦ (and_iff_right hnone).symm

/-- What is wrong with the bundle at an index, after the bundles before it. -/
def FaultAt (c : Configuration) (index : Nat) (e : ConfigurationError) : Prop :=
  ∃ b, c.bundles[index]? = some b ∧ Fault ((c.bundles.take index).map (·.id)) index b e

theorem validate_eq_error_iff : c.validate = .error e ↔
    ∃ index, c.FaultAt index e ∧ ∀ earlier < index, ∀ e', ¬c.FaultAt earlier e' := by
  have hfault : ∀ {i e}, FaultAmong [] 0 c.bundles i e ↔ c.FaultAt i e := by
    intro i e
    rw [FaultAmong, List.append_nil, Nat.zero_add, FaultAt]
  have hwalk : c.validate = .error e ↔ bundlesError? [] 0 c.bundles = some e := by
    rw [validate]
    cases bundlesError? [] 0 c.bundles with
    | none => simp
    | some e' => simp
  rw [hwalk, bundlesError?_eq_some_iff]
  simp only [hfault]

/-- **The outcome of a round trip.**  If the YAML reader undoes the printer on what is written for a
configuration, it is read as the same configuration again where it is valid, and refused as
validation refuses it where it is not.  It is valid if its identifiers are not blank and pairwise
different and no toolkit that is given is blank; otherwise validation reports the fault at the
smallest index that has one. -/
theorem read_write_outcome (c : Configuration) :
    (Yaml.read c.write = some c.toNode →
      (c.validate = .ok () → read c.write = .ok c) ∧
        ∀ e, c.validate = .error e → read c.write = .error e ∧
          ∃ field reason, e = .invalid field reason) ∧
    (c.validate = .ok () ↔
      (∀ b ∈ c.bundles, Text.isBlankText b.id = false) ∧ (c.bundles.map (·.id)).Nodup ∧
        ∀ b ∈ c.bundles, ∀ toolkit, b.toolkit? = some toolkit →
          Text.isBlankText toolkit = false) ∧
    ∀ e, c.validate = .error e ↔
      ∃ index, c.FaultAt index e ∧ ∀ earlier < index, ∀ e', ¬c.FaultAt earlier e' := by
  refine ⟨fun hread ↦ ⟨fun hvalid ↦ ?_, fun e herror ↦ ⟨?_, ?_⟩⟩, ?_, fun e ↦ validate_eq_error_iff⟩
  · rw [read_write hread, hvalid]
    rfl
  · rw [read_write hread, herror]
    rfl
  · obtain ⟨index, ⟨b, -, hfault⟩, -⟩ := validate_eq_error_iff.mp herror
    cases hfault with
    | blankId => exact ⟨_, _, rfl⟩
    | duplicateId => exact ⟨_, _, rfl⟩
    | blankToolkit => exact ⟨_, _, rfl⟩
  · rw [validate_eq_ok_iff]
    constructor
    · exact fun h ↦ ⟨fun b hb ↦ (h.bundles b hb).id, h.ids, fun b hb ↦ (h.bundles b hb).toolkit⟩
    · exact fun ⟨hid, hids, htoolkit⟩ ↦ ⟨fun b hb ↦ ⟨hid b hb, htoolkit b hb⟩, hids⟩

/-! A configuration with texts that would stand for nothing if they were written plain. -/

def quotedConfiguration : Configuration where
  bundles := [{ id := "null", path := "" }]
  strictMembers := true

/-- A scalar without quotes. -/
def plainNode (text : String) : Node := .scalar text .plain none

/-- What is written for it. -/
def quotedNode : Node := .mapping [
  (plainNode "version", plainNode "1"),
  (plainNode "bundles", .sequence [.mapping [
    (plainNode "id", .scalar "null" .singleQuoted none),
    (plainNode "path", .scalar "" .singleQuoted none)]]),
  (plainNode "cache", .mapping [
    (plainNode "enabled", plainNode "true"),
    (plainNode "honor_package_markers", plainNode "true")]),
  (plainNode "strict_members", plainNode "true")]

theorem toNode_quoted : quotedConfiguration.toNode = quotedNode := by
  decide +kernel

theorem write_quoted : quotedConfiguration.write =
    "version: 1\nbundles:\n- id: 'null'\n  path: ''\ncache:\n  enabled: true\n" ++
      "  honor_package_markers: true\nstrict_members: true\n" := by
  decide +kernel

theorem read_write_outcome_quoted :
    Yaml.read quotedConfiguration.write = some quotedConfiguration.toNode ∧
      read quotedConfiguration.write = .ok quotedConfiguration := by
  have hread : Yaml.read quotedConfiguration.write = some quotedConfiguration.toNode := by
    rw [toNode_quoted, write_quoted]
    cbv
  exact ⟨hread, ((read_write_outcome quotedConfiguration).1 hread).1 (by decide +kernel)⟩

end Configuration

end ComponentCatalog
