import ComponentCatalog.Proofs.Composition.PropertyTable

/-!
# Where overrides go

`ComponentCatalog.Proofs.Description.Overrides` says what overrides add up to if no identifier is the
title of another property.  Without that, it shows in the end how overrides and properties were
mixed.  What is left is that **every override goes to one property at most**
(`Description.recipient?`):

* to the one that its selector names among those that are there, by identifier or else by title;
* or else to the first one that is added later with its selector as identifier **or title**.

Each property ends up with what went to it, in the order in which it was given
(`Description.joinProperties_run_deliveries`).  So an override that has to wait for the property with
its identifier gets there only if no property with that title is added before.

The invariant is the closed form for what was done so far (`Description.Delivered`).
-/

set_option autoImplicit false

namespace ComponentCatalog

/-! ## Deliveries -/

/-- An override with the property that it goes to. -/
structure Delivery where
  override : PropertyOverride
  recipient? : Option Property

namespace Delivery

variable {ds : List Delivery} {p q : Property}

/-- The overrides that go to a property, in the order in which they were given. -/
def received (ds : List Delivery) (p : Property) : List PropertyOverride :=
  (ds.filter (·.recipient? = some p)).map (·.override)

/-- Properties, each with the overrides that go to it. -/
def allReceived (ps : List Property) (ds : List Delivery) : List Property :=
  ps.map fun p ↦ p.overriddenBy (received ds p)

/-- The overrides that go nowhere. -/
def waiting (ds : List Delivery) : List PropertyOverride :=
  (ds.filter (·.recipient? = none)).map (·.override)

/-- What becomes of a delivery when a property is added. -/
def arrive (q : Property) (d : Delivery) : Delivery :=
  { d with recipient? := d.recipient?.or (if q.matches d.override.selector then some q else none) }

theorem received_arrive_of_ne (h : p ≠ q) (ds : List Delivery) :
    received (ds.map (arrive q)) p = received ds p := by
  induction ds with
  | nil => rfl
  | cons d ds ih =>
    have hsame : (arrive q d).recipient? = some p ↔ d.recipient? = some p := by
      cases hd : d.recipient? <;> simp [arrive, hd, Ne.symm h]
    rw [received, received] at ih ⊢
    simp only [List.map_cons, List.filter_cons, hsame]
    split
    · exact congrArg (d.override :: ·) ih
    · exact ih

/-- A property that no override went to so far takes those that wait for it. -/
theorem received_arrive_self (h : ∀ d ∈ ds, d.recipient? ≠ some q) :
    received (ds.map (arrive q)) q = (waiting ds).filter (q.matches ·.selector) := by
  induction ds with
  | nil => rfl
  | cons d ds ih =>
    obtain ⟨hd, hds⟩ := List.forall_mem_cons.mp h
    have ih := ih hds
    rw [received, waiting] at ih ⊢
    cases hrecipient : d.recipient? with
    | some p =>
      have hp : p ≠ q := fun heq ↦ hd (hrecipient.trans (congrArg some heq))
      simpa [arrive, hrecipient, hp] using ih
    | none =>
      cases hmatches : q.matches d.override.selector <;>
        simpa [arrive, hrecipient, hmatches] using ih

theorem waiting_arrive (q : Property) (ds : List Delivery) :
    waiting (ds.map (arrive q)) = (waiting ds).filter (!q.matches ·.selector) := by
  induction ds with
  | nil => rfl
  | cons d ds ih =>
    rw [waiting, waiting] at ih ⊢
    cases hrecipient : d.recipient? with
    | some p => simpa [arrive, hrecipient] using ih
    | none =>
      cases hmatches : q.matches d.override.selector <;>
        simpa [arrive, hrecipient, hmatches] using ih

theorem received_concat (ds : List Delivery) (d : Delivery) (p : Property) :
    received (ds ++ [d]) p = received ds p ++ if d.recipient? = some p then [d.override] else [] := by
  rw [received, List.filter_append, List.map_append, received]
  split <;> simp [*]

theorem waiting_concat (ds : List Delivery) (d : Delivery) :
    waiting (ds ++ [d]) = waiting ds ++ if d.recipient? = none then [d.override] else [] := by
  rw [waiting, List.filter_append, List.map_append, waiting]
  split <;> simp [*]

end Delivery

namespace Description

open Property PropertyStep Delivery

variable {d : Description} {steps : List PropertyStep} {ps before later : List Property}
  {p q : Property} {o : PropertyOverride}

/-- The property that an override goes to, given after some properties and before others were
added. -/
def recipient? (before later : List Property) (selector : String) : Option Property :=
  (({ properties := before } : PropertyTable).find? selector).or
    (later.find? (·.matches selector))

/-- The overrides that steps give, between properties that were added before and after all of them,
with the properties that they go to. -/
def deliveries (before later : List Property) : List PropertyStep → List Delivery
  | [] => []
  | .add p :: steps => deliveries (before ++ [p]) later steps
  | .configure o :: steps =>
    ⟨o, recipient? before (added steps ++ later) o.selector⟩ :: deliveries before later steps

theorem deliveries_append (before later : List Property) (steps steps' : List PropertyStep) :
    deliveries before later (steps ++ steps') =
      deliveries before (added steps' ++ later) steps ++
        deliveries (before ++ added steps) later steps' := by
  induction steps generalizing before with
  | nil => exact congrArg (deliveries · later steps') (List.append_nil before).symm
  | cons step steps ih =>
    cases step with
    | add p =>
      have hadded : before ++ added (.add p :: steps) = before ++ [p] ++ added steps :=
        (List.append_assoc before [p] (added steps)).symm
      rw [hadded]
      exact ih (before ++ [p])
    | configure o =>
      rw [List.cons_append, deliveries, deliveries, added_append, List.append_assoc, ih]
      rfl

/-- One more property in the end takes the overrides that go nowhere else. -/
theorem deliveries_concat_later (before later : List Property) (q : Property)
    (steps : List PropertyStep) :
    deliveries before (later ++ [q]) steps = (deliveries before later steps).map (arrive q) := by
  induction steps generalizing before with
  | nil => rfl
  | cons step steps ih =>
    cases step with
    | add p => exact ih (before ++ [p])
    | configure o =>
      rw [deliveries, deliveries, ih, List.map_cons, arrive, recipient?, recipient?,
        ← List.append_assoc, List.find?_append, ← Option.or_assoc, List.find?_cons, List.find?_nil]
      cases q.matches o.selector <;> rfl

/-! ## One step -/

/-- The properties `ps` have been added, and overrides given with these deliveries. -/
structure Delivered (ps : List Property) (ds : List Delivery) (t : PropertyTable) : Prop where
  properties : t.properties = allReceived ps ds
  pending : t.pending = waiting ds
  recipients : ∀ d ∈ ds, ∀ p, d.recipient? = some p → p ∈ ps

variable {ds : List Delivery} {t : PropertyTable}

namespace Delivered

theorem find? (h : Delivered ps ds t) (selector : String) :
    t.find? selector = (({ properties := ps } : PropertyTable).find? selector).map fun p ↦
      p.overriddenBy (received ds p) := by
  have hfind : PropertyTable.find? ⟨allReceived ps ds, t.pending⟩ selector =
      (({ properties := ps } : PropertyTable).find? selector).map fun p ↦
        p.overriddenBy (received ds p) :=
    PropertyTable.find?_map (by simp) (by simp) t.pending selector
  rwa [← h.properties] at hfind

theorem add (h : Delivered ps ds t) (hids : ((ps ++ [q]).map (·.id)).Nodup) :
    Delivered (ps ++ [q]) (ds.map (arrive q)) (t.add q) := by
  have hother : ∀ p ∈ ps, p.id ≠ q.id := by
    intro p hp
    rw [List.map_append] at hids
    exact (List.nodup_append.mp hids).2.2 _ (List.mem_map_of_mem hp) _ List.mem_cons_self
  have hne : ∀ p ∈ ps, p ≠ q := fun p hp heq ↦ hother p hp (congrArg Property.id heq)
  have hnone : ∀ d ∈ ds, d.recipient? ≠ some q := fun d hd heq ↦
    hne q (h.recipients d hd q heq) rfl
  refine ⟨?_, ?_, ?_⟩
  -- `q` comes last with all that waits for it; nothing changes for the properties before it.
  · have hadd : (t.add q).properties = PropertyTable.put
        (q.overriddenBy (t.pending.filter (q.matches ·.selector))) t.properties := rfl
    have hothers : allReceived ps (ds.map (arrive q)) = t.properties := by
      rw [h.properties]
      exact List.map_congr_left fun p hp ↦ by rw [received_arrive_of_ne (hne p hp)]
    rw [hadd, h.pending, ← received_arrive_self hnone, allReceived, List.map_append,
      ← allReceived, hothers]
    refine put_eq_concat fun p' hp' ↦ ?_
    rw [h.properties] at hp'
    obtain ⟨p, hp, rfl⟩ := List.mem_map.mp hp'
    rw [overriddenBy_id, overriddenBy_id]
    exact hother p hp
  · have hadd : (t.add q).pending = t.pending.filter (!q.matches ·.selector) := rfl
    rw [hadd, h.pending, waiting_arrive]
  · refine List.forall_mem_map.mpr fun d hd p hp ↦ ?_
    obtain hp | ⟨-, hp⟩ := Option.or_eq_some_iff.mp hp
    · exact List.mem_append_left _ (h.recipients d hd p hp)
    · obtain ⟨-, hq⟩ := Option.ite_none_right_eq_some.mp hp
      obtain rfl := Option.some.inj hq
      exact List.mem_append_right _ List.mem_cons_self

theorem configure (h : Delivered ps ds t) (hids : (ps.map (·.id)).Nodup) (o : PropertyOverride) :
    Delivered ps (ds ++ [⟨o, recipient? ps [] o.selector⟩]) (t.configure o) := by
  have hrecipient : recipient? ps [] o.selector =
      ({ properties := ps } : PropertyTable).find? o.selector := Option.or_none
  rw [hrecipient, PropertyTable.configure, h.find?, Option.isSome_map]
  cases hfind : ({ properties := ps } : PropertyTable).find? o.selector with
  | none =>
    refine ⟨?_, ?_, ?_⟩
    · simpa [allReceived, received_concat] using h.properties
    · simpa [waiting_concat] using h.pending
    · refine List.forall_mem_append.mpr ⟨h.recipients, ?_⟩
      simp
  | some q =>
    have ht : t = { properties := allReceived ps ds, pending := waiting ds } := by
      rw [← h.properties, ← h.pending]
    rw [Option.isSome_some, if_pos rfl, ht, allReceived,
      PropertyTable.update_map (by simp) (by simp) hids.of_map, hfind]
    refine ⟨?_, ?_, ?_⟩
    · refine List.map_congr_left fun p _ ↦ ?_
      rw [received_concat, overriddenBy_append]
      split
      · rfl
      · rfl
    · simp [waiting_concat]
    · refine List.forall_mem_append.mpr ⟨h.recipients, ?_⟩
      have hq : q ∈ ps := by
        rcases Option.or_eq_some_iff.mp hfind with hq | ⟨-, hq⟩
        · exact List.mem_of_find?_eq_some hq
        · exact List.mem_of_find?_eq_some hq
      simp [hq]

end Delivered

/-! ## All steps -/

/-- Before they are joined, the properties have what went to them so far. -/
theorem delivered_run (hd : d.table = {}) (hids : ((added steps).map (·.id)).Nodup) :
    Delivered (added steps) (deliveries [] [] steps) (d.run steps).table := by
  induction steps using List.reverseRecOn with
  | nil =>
    exact ⟨congrArg PropertyTable.properties hd, congrArg PropertyTable.pending hd,
      List.forall_mem_nil _⟩
  | append_singleton steps step ih =>
    have hids' : ((added steps).map (·.id)).Nodup := by
      rw [added_append, List.map_append] at hids
      exact hids.of_append_left
    have ih := ih hids'
    rw [run_concat, deliveries_append, added_append]
    cases step with
    | add q =>
      have hlater : added [.add q] ++ [] = ([] : List Property) ++ [q] := rfl
      rw [hlater, deliveries_concat_later, deliveries, deliveries, List.append_nil]
      exact ih.add (added_append steps [.add q] ▸ hids)
    | configure o =>
      have hadded : added steps ++ added [.configure o] = added steps := List.append_nil _
      rw [hadded]
      exact ih.configure hids' o

theorem consistent_run (hd : d.table = {}) (steps : List PropertyStep) :
    (d.run steps).table.Consistent := by
  induction steps using List.reverseRecOn with
  | nil =>
    have hrun : (d.run []).table = {} := hd
    rw [hrun]
    exact .empty
  | append_singleton steps step ih =>
    rw [run_concat]
    cases step with
    | add p => exact ih.add p
    | configure o => exact ih.configure o

theorem joinProperties_run_received (hd : d.table = {})
    (hids : ((added steps).map (·.id)).Nodup) :
    (d.run steps).joinProperties =
      { d with table := { properties := allReceived (added steps) (deliveries [] [] steps) } } := by
  rw [joinProperties, (consistent_run hd steps).join_eq, (delivered_run hd hids).properties,
    run_withTable]

/-- An override that has to wait goes to the first property that its selector names at all. -/
theorem recipient?_eq_find? {selector : String}
    (h : ({ properties := before } : PropertyTable).find? selector = none) :
    recipient? before later selector = later.find? (·.matches selector) := by
  rw [recipient?, h, Option.none_or]

/-- The first property that a selector names is the one with that identifier, unless one before it
has that title. -/
theorem find?_matches_eq_some_iff {between rest : List Property}
    (hids : ((between ++ p :: rest).map (·.id)).Nodup) :
    (between ++ p :: rest).find? (·.matches p.id) = some p ↔ ∀ q ∈ between, q.title ≠ p.id := by
  have hother : ∀ q ∈ between, q.id ≠ p.id := by
    intro q hq
    rw [List.map_append] at hids
    exact (List.nodup_append.mp hids).2.2 _ (List.mem_map_of_mem hq) _ List.mem_cons_self
  constructor
  · intro hfind q hq htitle
    have hsome : (between.find? (·.matches p.id)).isSome :=
      List.find?_isSome.mpr ⟨q, hq, by simp [Property.matches, htitle]⟩
    rw [List.find?_append] at hfind
    obtain hfind | ⟨hnone, -⟩ := Option.or_eq_some_iff.mp hfind
    · exact hother p (List.mem_of_find?_eq_some hfind) rfl
    · rw [hnone] at hsome
      cases hsome
  · intro htitles
    have hnone : between.find? (·.matches p.id) = none := by
      refine List.find?_eq_none.mpr fun q hq ↦ ?_
      simp [Property.matches, hother q hq, htitles q hq]
    have hself : p.matches p.id := by simp [Property.matches]
    rw [List.find?_append, hnone, Option.none_or, List.find?_cons, hself]

theorem find?_added_of_property? (hd : d.table = {}) (hids : ((added steps).map (·.id)).Nodup)
    {selector : String} (h : (d.run steps).property? selector = none) :
    ({ properties := added steps } : PropertyTable).find? selector = none := by
  rw [property?, (delivered_run hd hids).find?] at h
  exact Option.map_eq_none_iff.mp h

/-- **Where overrides go.**  In the end each property has the overrides that go to it, in order, and
every override goes to one property at most.  An override without a property when it is given goes
to the first one added later that has its selector as identifier or title: so to the one with that
identifier, unless one with that title comes before. -/
theorem joinProperties_run_deliveries (hd : d.table = {})
    (hids : ((added steps).map (·.id)).Nodup) :
    (d.run steps).joinProperties =
      { d with table := { properties := allReceived (added steps) (deliveries [] [] steps) } } ∧
    ∀ earlier o later, steps = earlier ++ .configure o :: later →
      deliveries [] [] steps = deliveries [] (added later) earlier ++
        ⟨o, recipient? (added earlier) (added later) o.selector⟩ ::
          deliveries (added earlier) [] later ∧
      ((d.run earlier).property? o.selector = none →
        recipient? (added earlier) (added later) o.selector =
          (added later).find? (·.matches o.selector) ∧
        ∀ between p rest, added later = between ++ p :: rest → p.id = o.selector →
          (recipient? (added earlier) (added later) o.selector = some p ↔
            ∀ q ∈ between, q.title ≠ o.selector)) := by
  refine ⟨joinProperties_run_received hd hids, ?_⟩
  rintro earlier o later rfl
  have hsplit : added (earlier ++ .configure o :: later) = added earlier ++ added later :=
    added_append earlier (.configure o :: later)
  rw [hsplit, List.map_append] at hids
  refine ⟨?_, fun hnone ↦ ?_⟩
  · have hlater : added (.configure o :: later) ++ [] = added later := List.append_nil _
    rw [deliveries_append, hlater, List.nil_append, deliveries, List.append_nil]
  · have hwaits := find?_added_of_property? hd hids.of_append_left hnone
    rw [recipient?_eq_find? hwaits]
    refine ⟨rfl, fun between p rest hlater hp ↦ ?_⟩
    rw [hlater, ← hp]
    exact find?_matches_eq_some_iff (hlater ▸ hids.of_append_right)

/-! A box whose size can be set in one or in two steps; "size" is the identifier of one property and
the title of the other one. -/

def boxDescription : Description := ofClass (.pure "a.Box") (.ofName "a.Box")

def boxSize : Property := { id := "size", title := "both", kind := .configurable }

def boxWidth : Property := { id := "width", title := "size", kind := .configurable }

def boxOverride : PropertyOverride := { selector := "size", noDefaultValue := true }

theorem joinProperties_run_deliveries_box :
    let steps := [PropertyStep.configure boxOverride, .add boxSize, .add boxWidth]
    ((added steps).map (·.id)).Nodup ∧
      deliveries [] [] steps = [⟨boxOverride, some boxSize⟩] ∧
      (boxDescription.run steps).joinProperties.properties =
        [{ boxSize with noDefaultValue := true }, boxWidth] := by
  intro steps
  have hids : ((added steps).map (·.id)).Nodup := by decide
  obtain ⟨hjoined, hgiven⟩ := joinProperties_run_deliveries (d := boxDescription) rfl hids
  obtain ⟨hdeliveries, hwaits⟩ := hgiven [] boxOverride _ rfl
  have hrecipient := ((hwaits rfl).2 [] boxSize [boxWidth] rfl rfl).mpr (List.forall_mem_nil _)
  rw [hrecipient] at hdeliveries
  refine ⟨hids, hdeliveries, ?_⟩
  rw [hjoined, hdeliveries]
  decide

/-- If the property with the title comes first, it takes the override from the one with the
identifier. -/
theorem joinProperties_run_title_first :
    let steps := [PropertyStep.configure boxOverride, .add boxWidth, .add boxSize]
    ((added steps).map (·.id)).Nodup ∧ boxDescription.property? boxOverride.selector = none ∧
      (boxDescription.run steps).joinProperties.properties =
        [{ boxWidth with noDefaultValue := true }, boxSize] := by
  decide

end Description

end ComponentCatalog
