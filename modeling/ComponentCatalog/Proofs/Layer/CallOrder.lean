import ComponentCatalog.Proofs.Layer.LoadFailure
import ComponentCatalog.Proofs.Layer.Marks
import ComponentCatalog.Proofs.Layer.Nesting
import Mathlib.Data.List.Nodup

/-!
# The order of calls

**Calls nest like the elements that they are for** (`apply_nests`), whatever the rules are and
whatever their handlers do.  Which calls there are, and in which order, follows from the patterns
and the names of the elements: `events` lists them, each with its `Site`.  How far the list is
gone through depends on the handlers: `trace` goes through it one call after the other and keeps a
record of the calls made, up to the first that fails.

That the list is orderly is shown of its marks, for which only the patterns of the rules count
(`numbers_congr`).  The induction is on the element: the marks of its matching rules are put around
those of its children, and those of the children, which have different numbers in their places, come
one after the other.
-/

set_option autoImplicit false

namespace ComponentCatalog

open Xml

/-! ## Calls at their sites -/

/-- A call with the site that it is made for. -/
structure Event where
  site : Site
  call : Call

/-- The mark that the call leaves. -/
def Event.mark (v : Event) : Mark := ⟨v.site, v.call.opens⟩

namespace Rules

variable {rules : List Rule} {path : String} {place : List Nat}

/-- The rules that match a path, with their numbers. -/
def matching (rules : List Rule) (path : String) : List (Rule × Nat) :=
  rules.zipIdx.filter (·.1.matches path)

/-- The calls of a rule for an element at a place, around other calls. -/
def encloseEvents (place : List Nat) (e : Element) (entry : Rule × Nat) (inner : List Event) :
    List Event :=
  ⟨⟨entry.2, place⟩, entry.1, true, e⟩ :: inner ++ [⟨⟨entry.2, place⟩, entry.1, false, e⟩]

mutual

/-- The calls for an element with a path, at a place, and for all elements in it. -/
def events (rules : List Rule) (path : String) (place : List Nat) : Element → List Event
  | ⟨name, attributes, text, children⟩ =>
    (matching rules path).foldr (encloseEvents place ⟨name, attributes, text, children⟩)
      (childEvents rules path place 0 children)

/-- The calls for the children of an element, which are numbered from `next`. -/
def childEvents (rules : List Rule) (path : String) (place : List Nat) (next : Nat) :
    List Element → List Event
  | [] => []
  | child :: rest =>
    events rules (childPath path child.name) (place ++ [next]) child ++
      childEvents rules path place (next + 1) rest

end

theorem map_fst_matching (rules : List Rule) (path : String) :
    (matching rules path).map Prod.fst = rules.filter (·.matches path) := calc
  (matching rules path).map Prod.fst
    = (rules.zipIdx.map Prod.fst).filter (·.matches path) := by rw [List.filter_map]; rfl
  _ = rules.filter (·.matches path) := by rw [List.zipIdx_map_fst]

theorem map_call_encloseEvents (place : List Nat) (e : Element) (entry : Rule × Nat)
    (inner : List Event) :
    (encloseEvents place e entry inner).map Event.call =
      enclose e entry.1 (inner.map Event.call) := by
  simp [encloseEvents, enclose]

mutual

/-- The calls are those that are made for the element. -/
theorem map_call_events (path : String) : ∀ (e : Element) (place : List Nat),
    (events rules path place e).map Event.call = calls rules path e
  | ⟨name, attributes, text, children⟩, place => by
    rw [events, ← List.foldr_hom (List.map Event.call) fun entry inner ↦
        (map_call_encloseEvents place _ entry inner).symm,
      map_call_childEvents path children, calls_eq_foldr, ← map_fst_matching, List.foldr_map]

theorem map_call_childEvents (path : String) :
    ∀ (children : List Element) (place : List Nat) (next : Nat),
      (childEvents rules path place next children).map Event.call = childCalls rules path children
  | [], _, _ => by rw [childEvents, childCalls, List.map_nil]
  | child :: rest, place, next => by
    rw [childEvents, childCalls, List.map_append, map_call_events _ child,
      map_call_childEvents path rest]

end

theorem of_mem_foldr_encloseEvents {e : Element} {entries : List (Rule × Nat)}
    {inner : List Event} {v : Event} (h : v ∈ entries.foldr (encloseEvents place e) inner) :
    (∃ entry ∈ entries, ∃ opens, v = ⟨⟨entry.2, place⟩, entry.1, opens, e⟩) ∨ v ∈ inner := by
  induction entries with
  | nil => exact .inr h
  | cons entry entries ih =>
    rcases List.mem_cons.mp h with rfl | h
    · exact .inl ⟨entry, List.mem_cons_self, true, rfl⟩
    · rcases List.mem_append.mp h with h | h
      · rcases ih h with ⟨entry', hentry', hv⟩ | h
        · exact .inl ⟨entry', List.mem_cons_of_mem _ hentry', hv⟩
        · exact .inr h
      · exact .inl ⟨entry, List.mem_cons_self, false, List.mem_singleton.mp h⟩

/-! ## Elements at their places -/

/-- The path and the element at a place inside an element with a path. -/
def located : String → Element → List Nat → Option (String × Element)
  | path, e, [] => some (path, e)
  | path, e, k :: inner =>
    e.children[k]?.bind fun child ↦ located (childPath path child.name) child inner

mutual

/-- Calls are for the rule and the element of their site. -/
theorem site_of_mem_events (path : String) : ∀ (e : Element) (place : List Nat) (v : Event),
    v ∈ events rules path place e → rules[v.site.rule]? = some v.call.rule ∧
      ∃ inner path', v.site.place = place ++ inner ∧
        located path e inner = some (path', v.call.element)
  | ⟨name, attributes, text, children⟩, place, v, h => by
    rw [events] at h
    rcases of_mem_foldr_encloseEvents h with ⟨entry, hentry, opens, rfl⟩ | h
    · have hrule := List.mem_zipIdx_iff_getElem?.mp (List.mem_filter.mp hentry).1
      exact ⟨hrule, [], path, (List.append_nil place).symm, rfl⟩
    · obtain ⟨hrule, k, inner, child, path', hchild, hplace, hlocated⟩ :=
        site_of_mem_childEvents path children place 0 v h
      rw [Nat.zero_add] at hplace
      exact ⟨hrule, k :: inner, path', hplace, by rw [located, hchild]; exact hlocated⟩

theorem site_of_mem_childEvents (path : String) :
    ∀ (children : List Element) (place : List Nat) (next : Nat) (v : Event),
      v ∈ childEvents rules path place next children → rules[v.site.rule]? = some v.call.rule ∧
        ∃ k inner child path', children[k]? = some child ∧
          v.site.place = place ++ (next + k) :: inner ∧
          located (childPath path child.name) child inner = some (path', v.call.element)
  | [], place, next, v, h => by
    rw [childEvents] at h
    cases h
  | child :: rest, place, next, v, h => by
    rw [childEvents] at h
    rcases List.mem_append.mp h with h | h
    · obtain ⟨hrule, inner, path', hplace, hlocated⟩ := site_of_mem_events _ child _ v h
      exact ⟨hrule, 0, inner, child, path', rfl, by simpa using hplace, hlocated⟩
    · obtain ⟨hrule, k, inner, child', path', hchild, hplace, hlocated⟩ :=
        site_of_mem_childEvents path rest place (next + 1) v h
      refine ⟨hrule, k + 1, inner, child', path', by simpa using hchild, ?_, hlocated⟩
      rw [hplace, Nat.add_right_comm, Nat.add_assoc]

end

/-! ## Marks of elements -/

mutual

/-- The marks of an element with a path, at a place, and of all elements in it, where `numbers`
tells which rules there are for a path. -/
def marks (numbers : String → List Nat) (path : String) (place : List Nat) : Element → List Mark
  | ⟨_, _, _, children⟩ =>
    Mark.encloseAll place (numbers path) (childMarks numbers path place 0 children)

/-- The marks of the children of an element, which are numbered from `next`. -/
def childMarks (numbers : String → List Nat) (path : String) (place : List Nat) (next : Nat) :
    List Element → List Mark
  | [] => []
  | child :: rest =>
    marks numbers (childPath path child.name) (place ++ [next]) child ++
      childMarks numbers path place (next + 1) rest

end

/-- The numbers of the rules that match a path. -/
def numbers (rules : List Rule) (path : String) : List Nat := (matching rules path).map Prod.snd

theorem map_mark_encloseEvents (place : List Nat) (e : Element) (entry : Rule × Nat)
    (inner : List Event) :
    (encloseEvents place e entry inner).map Event.mark =
      Mark.enclose ⟨entry.2, place⟩ (inner.map Event.mark) := by
  simp [encloseEvents, Mark.enclose, Event.mark]

mutual

theorem map_mark_events (path : String) : ∀ (e : Element) (place : List Nat),
    (events rules path place e).map Event.mark = marks (numbers rules) path place e
  | ⟨name, attributes, text, children⟩, place => by
    rw [events, ← List.foldr_hom (List.map Event.mark) fun entry inner ↦
        (map_mark_encloseEvents place _ entry inner).symm,
      map_mark_childEvents path children, marks, Mark.encloseAll, numbers, List.foldr_map]

theorem map_mark_childEvents (path : String) :
    ∀ (children : List Element) (place : List Nat) (next : Nat),
      (childEvents rules path place next children).map Event.mark =
        childMarks (numbers rules) path place next children
  | [], _, _ => by rw [childEvents, childMarks, List.map_nil]
  | child :: rest, place, next => by
    rw [childEvents, childMarks, List.map_append, map_mark_events _ child,
      map_mark_childEvents path rest]

end

theorem mem_numbers_iff {number : Nat} :
    number ∈ numbers rules path ↔ ∃ rule, rules[number]? = some rule ∧ rule.matches path := by
  simp [numbers, matching, List.mem_zipIdx_iff_getElem?]

theorem pairwise_numbers (rules : List Rule) (path : String) :
    (numbers rules path).Pairwise (· < ·) := by
  have hall : (rules.zipIdx.map Prod.snd).Pairwise (· < ·) := by
    rw [List.zipIdx_map_snd]
    exact List.pairwise_lt_range'
  exact hall.sublist (List.filter_sublist.map Prod.snd)

theorem numbers_eq (rules : List Rule) (path : String) :
    numbers rules path = ((rules.map (·.pattern)).zipIdx.filter fun entry ↦
      Rule.patternMatches entry.1 path).map Prod.snd := by
  rw [List.zipIdx_map, List.filter_map, List.map_map]
  rfl

/-- Of the rules, only the patterns count. -/
theorem numbers_congr {others : List Rule}
    (h : others.map (·.pattern) = rules.map (·.pattern)) : numbers others = numbers rules := by
  funext path
  rw [numbers_eq, numbers_eq, h]

/-- One of the rules with the numbers given is for the element at a place inside an element. -/
def HasRule (numbers : String → List Nat) (path : String) (e : Element) (inner : List Nat)
    (number : Nat) : Prop :=
  ∃ path' e', located path e inner = some (path', e') ∧ number ∈ numbers path'

section

variable {numbers : String → List Nat} {e : Element} {number : Nat}

theorem hasRule_nil_iff : HasRule numbers path e [] number ↔ number ∈ numbers path := by
  simp [HasRule, located]

theorem hasRule_cons_iff {k : Nat} {inner : List Nat} :
    HasRule numbers path e (k :: inner) number ↔
      ∃ child, e.children[k]? = some child ∧
        HasRule numbers (childPath path child.name) child inner number := by
  simp only [HasRule, located, Option.bind_eq_some_iff]
  constructor
  · rintro ⟨path', e', ⟨child, hchild, hlocated⟩, hnumber⟩
    exact ⟨child, hchild, path', e', hlocated, hnumber⟩
  · rintro ⟨child, hchild, path', e', hlocated, hnumber⟩
    exact ⟨path', e', ⟨child, hchild, hlocated⟩, hnumber⟩

mutual

/-- The sites of the marks of an element are those of a rule and an element in it. -/
theorem occurs_marks_iff (path : String) : ∀ (e : Element) (place : List Nat) (s : Site),
    Occurs (marks numbers path place e) s ↔
      ∃ inner, s.place = place ++ inner ∧ HasRule numbers path e inner s.rule
  | ⟨name, attributes, text, children⟩, place, s => by
    rw [marks, occurs_encloseAll_iff, occurs_childMarks_iff path children]
    constructor
    · rintro (⟨hplace, hrule⟩ | ⟨k, inner, child, hchild, hplace, hrule⟩)
      · exact ⟨[], by simpa using hplace, hasRule_nil_iff.mpr hrule⟩
      · rw [Nat.zero_add] at hplace
        exact ⟨k :: inner, hplace, hasRule_cons_iff.mpr ⟨child, hchild, hrule⟩⟩
    · rintro ⟨inner, hplace, hrule⟩
      cases inner with
      | nil => exact .inl ⟨by simpa using hplace, hasRule_nil_iff.mp hrule⟩
      | cons k inner =>
        obtain ⟨child, hchild, hrule⟩ := hasRule_cons_iff.mp hrule
        exact .inr ⟨k, inner, child, hchild, by rwa [Nat.zero_add], hrule⟩

theorem occurs_childMarks_iff (path : String) :
    ∀ (children : List Element) (place : List Nat) (next : Nat) (s : Site),
      Occurs (childMarks numbers path place next children) s ↔
        ∃ k inner child, children[k]? = some child ∧ s.place = place ++ (next + k) :: inner ∧
          HasRule numbers (childPath path child.name) child inner s.rule
  | [], place, next, s => by
    rw [childMarks]
    constructor
    · exact fun h ↦ absurd h (not_occurs_nil s)
    · rintro ⟨k, inner, child, hchild, -⟩
      simp at hchild
  | child :: rest, place, next, s => by
    rw [childMarks, occurs_append_iff, occurs_marks_iff _ child, occurs_childMarks_iff path rest]
    constructor
    · rintro (⟨inner, hplace, hrule⟩ | ⟨k, inner, child', hchild, hplace, hrule⟩)
      · exact ⟨0, inner, child, rfl, by simpa using hplace, hrule⟩
      · refine ⟨k + 1, inner, child', by simpa using hchild, ?_, hrule⟩
        rw [hplace, Nat.add_right_comm, Nat.add_assoc]
    · rintro ⟨k, inner, child', hchild, hplace, hrule⟩
      cases k with
      | zero =>
        obtain rfl : child = child' := by simpa using hchild
        exact .inl ⟨inner, by simpa using hplace, hrule⟩
      | succ k =>
        refine .inr ⟨k, inner, child', by simpa using hchild, ?_, hrule⟩
        rw [hplace, Nat.add_right_comm, Nat.add_assoc]

end

/-! ## The marks of elements are orderly -/

theorem isPrefix_of_occurs {place : List Nat} {next : Nat} {children : List Element} {s : Site}
    (h : Occurs (childMarks numbers path place next children) s) :
    ∃ k, next ≤ k ∧ place ++ [k] <+: s.place := by
  obtain ⟨k, inner, child, -, hplace, -⟩ := (occurs_childMarks_iff path children place next s).mp h
  exact ⟨next + k, Nat.le_add_right _ _, inner, by rw [hplace, List.append_assoc]; rfl⟩

mutual

theorem orderly_marks (hnumbers : ∀ path, (numbers path).Pairwise (· < ·)) (path : String) :
    ∀ (e : Element) (place : List Nat), Orderly (marks numbers path place e)
  | ⟨name, attributes, text, children⟩, place => by
    rw [marks]
    refine (orderly_childMarks hnumbers path children place 0).encloseAll (hnumbers path) ?_
    intro t ht
    obtain ⟨k, -, inner, hplace⟩ := isPrefix_of_occurs ht
    rw [← hplace]
    simp

theorem orderly_childMarks (hnumbers : ∀ path, (numbers path).Pairwise (· < ·)) (path : String) :
    ∀ (children : List Element) (place : List Nat) (next : Nat),
      Orderly (childMarks numbers path place next children)
  | [], place, next => by
    rw [childMarks]
    exact orderly_nil
  | child :: rest, place, next => by
    rw [childMarks]
    refine (orderly_marks hnumbers _ child _).append
      (orderly_childMarks hnumbers path rest place (next + 1)) fun s t hs ht ↦ ?_
    obtain ⟨inner, hs, -⟩ := (occurs_marks_iff _ child _ s).mp hs
    obtain ⟨k, hk, inner', ht⟩ := isPrefix_of_occurs ht
    -- Later children have greater numbers, so the two places part right after `place`.
    have hne : next ≠ k := by omega
    rw [Site.Apart, hs, ← ht]
    simp [List.append_assoc, List.prefix_append_right_inj, hne, hne.symm]

end

end

/-! ## Making the calls -/

end Rules

/-- The calls that have been made, and what they have come to. -/
structure Trace where
  made : List Event := []
  outcome : Except Failure Reading := .ok {}

/-- Makes a call and records it, unless one has failed. -/
def Trace.make (t : Trace) (v : Event) : Trace :=
  match t.outcome with
  | .ok r => { made := t.made ++ [v], outcome := v.call.run r }
  | .error _ => t

namespace Trace

variable {t : Trace} {r : Reading} {f : Failure}

theorem make_of_ok (h : t.outcome = .ok r) (v : Event) :
    t.make v = { made := t.made ++ [v], outcome := v.call.run r } := by
  rw [make, h]

theorem make_of_error (h : t.outcome = .error f) (v : Event) : t.make v = t := by
  rw [make, h]

theorem foldl_make_of_error (h : t.outcome = .error f) (events : List Event) :
    events.foldl make t = t := by
  induction events with
  | nil => rfl
  | cons v events ih => rw [List.foldl_cons, make_of_error h, ih]

/-- What the calls come to is what they come to without the record. -/
theorem outcome_foldl_make (events : List Event) (t : Trace) :
    (events.foldl make t).outcome = t.outcome >>= Rules.run (events.map Event.call) := by
  induction events generalizing t with
  | nil =>
    cases h : t.outcome with
    | error f =>
      rw [List.foldl_nil, h]
      rfl
    | ok r => rw [List.foldl_nil, h, ok_bind, List.map_nil, Rules.run_nil]
  | cons v events ih =>
    rw [List.foldl_cons, ih]
    cases h : t.outcome with
    | error f =>
      rw [make_of_error h, h]
      rfl
    | ok r =>
      rw [make_of_ok h, ok_bind, List.map_cons, Rules.run_cons]

theorem made_foldl_make_of_ok {events : List Event}
    (h : (events.foldl make t).outcome = .ok r) :
    (events.foldl make t).made = t.made ++ events := by
  induction events generalizing t with
  | nil => simp
  | cons v events ih =>
    rw [List.foldl_cons] at h ⊢
    rw [ih h]
    cases houtcome : t.outcome with
    | error f =>
      rw [make_of_error houtcome, foldl_make_of_error houtcome, houtcome] at h
      cases h
    | ok r' => rw [make_of_ok houtcome, List.append_assoc, List.singleton_append]

/-- If a call fails, it is the last one made. -/
theorem exists_of_outcome_error {events : List Event} (ht : t.outcome = .ok r)
    (h : (events.foldl make t).outcome = .error f) :
    ∃ before v after r', events = before ++ v :: after ∧
      (events.foldl make t).made = t.made ++ (before ++ [v]) ∧
      Rules.run (before.map Event.call) r = .ok r' ∧ v.call.run r' = .error f := by
  have hrun : ∀ events : List Event, (events.foldl make t).outcome =
      events.foldlM (fun r v ↦ v.call.run r) r := fun events ↦ by
    rw [outcome_foldl_make, ht, ok_bind, Rules.run, List.foldlM_map]
  rw [hrun] at h
  obtain ⟨before, v, after, r', rfl, hbefore, hv⟩ := foldlM_eq_error_iff.mp h
  -- Up to the call that fails, the record is that of a run without failures.
  have hreached : (before.foldl make t).outcome = .ok r' := by rw [hrun, hbefore]
  refine ⟨before, v, after, r', rfl, ?_, ?_, hv⟩
  · rw [List.foldl_append, List.foldl_cons, make_of_ok hreached, foldl_make_of_error hv,
      made_foldl_make_of_ok hreached, List.append_assoc]
  · rw [Rules.run, List.foldlM_map, hbefore]

end Trace

namespace Rules

variable {rules : List Rule} {root : Element}

/-- The calls made when rules are applied to a document. -/
def trace (rules : List Rule) (root : Element) : Trace :=
  (events rules rootName [] root).foldl Trace.make {}

theorem outcome_trace (rules : List Rule) (root : Element) :
    (trace rules root).outcome = run (calls rules rootName root) {} := by
  rw [trace, Trace.outcome_foldl_make, map_call_events]
  rfl

/-! ## Calls nest -/

/-- The rule of the site matches the path of its element. -/
def Matches (rules : List Rule) (root : Element) (s : Site) : Prop :=
  ∃ rule path e, rules[s.rule]? = some rule ∧ located rootName root s.place = some (path, e) ∧
    rule.matches path

theorem occurs_marks_rootName_iff (rules : List Rule) (root : Element) (s : Site) :
    Occurs (marks (numbers rules) rootName [] root) s ↔ Matches rules root s := by
  rw [occurs_marks_iff]
  simp only [List.nil_append, exists_eq_left', HasRule, mem_numbers_iff, Matches]
  constructor
  · rintro ⟨path, e, hlocated, rule, hrule, hmatches⟩
    exact ⟨rule, path, e, hrule, hlocated, hmatches⟩
  · rintro ⟨rule, path, e, hrule, hlocated, hmatches⟩
    exact ⟨path, e, hlocated, rule, hrule, hmatches⟩

/-- Marks that nest like the elements of a document and, at one element, like the rules. -/
structure NestLike (rules : List Rule) (root : Element) (marks : List Mark) : Prop where
  /-- A rule is called once at the opening and once at the closing of an element that it matches. -/
  once : ∀ s, Matches rules root s → ∀ opens, marks.count ⟨s, opens⟩ = 1
  only : ∀ s, ¬Matches rules root s → ∀ opens, marks.count ⟨s, opens⟩ = 0
  closes : ∀ s, Matches rules root s → [⟨s, true⟩, ⟨s, false⟩].Sublist marks
  nested_or_apart : ∀ s t, Matches rules root s → Matches rules root t → s ≠ t →
    (Around marks s t ∨ Around marks t s) ∨ Ahead marks s t ∨ Ahead marks t s
  descendants : ∀ s t, Matches rules root s → Matches rules root t → s.place <+: t.place →
    s.place ≠ t.place → Around marks s t
  registered : ∀ s t, Matches rules root s → Matches rules root t → s.place = t.place →
    s.rule < t.rule → Around marks s t

/-- Orderly marks of the sites where a rule matches nest. -/
theorem nestLike_of_orderly {marks : List Mark} (h : Orderly marks)
    (hoccurs : ∀ s, Occurs marks s ↔ Matches rules root s) : NestLike rules root marks where
  once s hs opens := List.count_eq_one_of_mem h.nodup (h.mem ((hoccurs s).mpr hs) opens)
  only s hs opens := List.count_eq_zero_of_not_mem fun hmem ↦ hs ((hoccurs s).mp ⟨opens, hmem⟩)
  closes s hs := h.closes ((hoccurs s).mpr hs)
  nested_or_apart s t hs ht hne := by
    have hs := (hoccurs s).mpr hs
    have ht := (hoccurs t).mpr ht
    by_cases houter : s.Outer t
    · exact .inl (.inl (h.around hs ht houter))
    · by_cases houter' : t.Outer s
      · exact .inl (.inr (h.around ht hs houter'))
      · exact .inr (h.ahead hs ht hne houter houter')
  descendants s t hs ht hinner hne :=
    h.around ((hoccurs s).mpr hs) ((hoccurs t).mpr ht) (.inl ⟨hinner, hne⟩)
  registered s t hs ht hplace hrule :=
    h.around ((hoccurs s).mpr hs) ((hoccurs t).mpr ht) (.inr ⟨hplace, hrule⟩)

/-- The rules without their handlers. -/
def silent (rules : List Rule) : List Rule := rules.map fun rule ↦ { pattern := rule.pattern }

theorem map_pattern_silent (rules : List Rule) :
    (silent rules).map (·.pattern) = rules.map (·.pattern) := by
  rw [silent, List.map_map]
  rfl

theorem run_silent {calls : List Call} (h : ∀ c ∈ calls, c.rule ∈ silent rules) (r : Reading) :
    run calls r = .ok r := by
  induction calls with
  | nil => rfl
  | cons c calls ih =>
    obtain ⟨hc, hcalls⟩ := List.forall_mem_cons.mp h
    obtain ⟨rule, -, hrule⟩ := List.mem_map.mp hc
    have hrun : c.run r = .ok r := by rw [Call.run, ← hrule, ite_self]
    rw [run_cons, hrun, ok_bind, ih hcalls]

/-- Rules without handlers read every document. -/
theorem outcome_trace_silent (rules : List Rule) (root : Element) :
    (trace (silent rules) root).outcome = .ok {} := by
  rw [outcome_trace]
  exact run_silent (fun c hc ↦ rule_mem_of_mem_calls hc) {}

/-- All calls are made if none fails. -/
theorem map_mark_made_of_ok {r : Reading} (h : (trace rules root).outcome = .ok r) :
    (trace rules root).made.map Event.mark = marks (numbers rules) rootName [] root := by
  rw [trace, Trace.made_foldl_make_of_ok h, List.nil_append, map_mark_events]

/-- Whether a call fails or not, the calls made are the first of those that there are. -/
theorem made_isPrefix (rules : List Rule) (root : Element) :
    (trace rules root).made <+: events rules rootName [] root := by
  cases h : (trace rules root).outcome with
  | error f =>
    obtain ⟨before, v, after, r, hevents, hmade, -⟩ := Trace.exists_of_outcome_error rfl h
    rw [trace, hmade, hevents]
    exact ⟨after, by simp⟩
  | ok r =>
    rw [trace, Trace.made_foldl_make_of_ok h]
    exact List.prefix_refl _

theorem site_of_mem_made {v : Event} (h : v ∈ (trace rules root).made) :
    rules[v.site.rule]? = some v.call.rule ∧
      ∃ path, located rootName root v.site.place = some (path, v.call.element) := by
  obtain ⟨hrule, inner, path, hplace, hlocated⟩ :=
    site_of_mem_events rootName root [] v ((made_isPrefix rules root).subset h)
  rw [List.nil_append] at hplace
  exact ⟨hrule, path, by rw [hplace, hlocated]⟩

/-- What becomes of a document when a call fails. -/
structure StopsWith (rules : List Rule) (root : Element) (f : Failure) : Prop where
  /-- The call that fails is the last one. -/
  last : ∃ before v r, (trace rules root).made = before ++ [v] ∧
    run (before.map Event.call) {} = .ok r ∧ v.call.run r = .error f
  /-- Its failure is that of the document. -/
  result : apply rules root = .error f
  /-- Up to it, the calls are those of any rules with the same patterns that do not fail. -/
  isPrefix : ∀ others : List Rule, others.map (·.pattern) = rules.map (·.pattern) →
    ∀ r, (trace others root).outcome = .ok r →
      (trace rules root).made.map Event.mark <+: (trace others root).made.map Event.mark
  /-- There are such rules. -/
  silent : (silent rules).map (·.pattern) = rules.map (·.pattern) ∧
    (trace (silent rules) root).outcome = .ok {}

theorem stopsWith_of_outcome_error {f : Failure}
    (happly : apply rules root = (trace rules root).outcome >>= Reading.finish)
    (hf : (trace rules root).outcome = .error f) : StopsWith rules root f := by
  obtain ⟨before, v, -, r, -, hmade, hrun, hv⟩ := Trace.exists_of_outcome_error rfl hf
  refine ⟨⟨before, v, r, hmade, hrun, hv⟩, ?_, fun others hpatterns r' hr' ↦ ?_,
    map_pattern_silent rules, outcome_trace_silent rules root⟩
  · rw [happly, hf]
    rfl
  · rw [map_mark_made_of_ok hr', numbers_congr hpatterns, ← map_mark_events]
    exact (made_isPrefix rules root).map Event.mark

end Rules

open Rules in
/-- **Calls nest like the elements that they are for.**  Applying rules to a component makes calls
for the rules and elements of their sites.  If no call fails, every rule is called once at the
opening and once at the closing of each element that it matches; the spans between are nested or
apart, those of an element are around those of the elements in it, and at one element the rule that
comes first is around the others.  If a call fails, nothing is called after it, its failure is what
comes of the document, and the calls up to it are the first of those that are made without
failures. -/
theorem apply_nests (rules : List Rule) {root : Element} (hroot : root.name = rootName) :
    apply rules root = (trace rules root).outcome >>= Reading.finish ∧
    (trace rules root).made.map Event.call <+: calls rules rootName root ∧
    (∀ v ∈ (trace rules root).made, rules[v.site.rule]? = some v.call.rule ∧
      ∃ path, located rootName root v.site.place = some (path, v.call.element)) ∧
    (∀ r, (trace rules root).outcome = .ok r →
      NestLike rules root ((trace rules root).made.map Event.mark)) ∧
    ∀ f, (trace rules root).outcome = .error f → StopsWith rules root f := by
  have happly : apply rules root = (trace rules root).outcome >>= Reading.finish := by
    rw [apply, if_pos hroot, outcome_trace]
  refine ⟨happly, ?_, fun v hv ↦ site_of_mem_made hv, fun r hr ↦ ?_, fun f hf ↦ ?_⟩
  · rw [← map_call_events rootName root []]
    exact (made_isPrefix rules root).map Event.call
  · rw [map_mark_made_of_ok hr]
    exact nestLike_of_orderly (orderly_marks (pairwise_numbers rules) rootName root [])
      (occurs_marks_rootName_iff rules root)
  · exact stopsWith_of_outcome_error happly hf

/-- Two rules get an editor inside a property; the outer one fails when the editor closes, after the
inner one has been called twice and before the property is closed. -/
theorem apply_nests_editor :
    let editor : Element := { name := "editor" }
    let root : Element :=
      { name := "component", children := [{ name := "property", children := [editor] }] }
    let rules : List Rule :=
      [{ pattern := "component/property/editor", onClose := fun e _ ↦ .error (.misplaced e none) },
        { pattern := "component/property" }, { pattern := "*/editor" }]
    let failure := Failure.misplaced editor none
    root.name = Rules.rootName ∧
      (Rules.trace rules root).outcome = .error failure ∧
      Rules.apply rules root = .error failure ∧
      (Rules.trace rules root).made.map Event.mark =
        [⟨⟨1, [0]⟩, true⟩, ⟨⟨0, [0, 0]⟩, true⟩, ⟨⟨2, [0, 0]⟩, true⟩, ⟨⟨2, [0, 0]⟩, false⟩,
          ⟨⟨0, [0, 0]⟩, false⟩] ∧
      (Rules.trace (Rules.silent rules) root).outcome = .ok {} ∧
      Rules.NestLike (Rules.silent rules) root
        ((Rules.trace (Rules.silent rules) root).made.map Event.mark) := by
  intro editor root rules failure
  have hroot : root.name = Rules.rootName := rfl
  have hfails : (Rules.trace rules root).outcome = .error failure :=
    failureOf?_eq_some_iff.mp (by decide +kernel)
  obtain ⟨-, -, -, -, hstops⟩ := apply_nests rules hroot
  obtain ⟨-, -, -, hnest, -⟩ := apply_nests (Rules.silent rules) hroot
  have hstops := hstops failure hfails
  have hsilent := hstops.silent.2
  exact ⟨hroot, hfails, hstops.result, by decide +kernel, hsilent, hnest {} hsilent⟩

end ComponentCatalog
