import ComponentCatalog.Proofs.Layer.Places

/-!
# The frames at each element

What is under construction at an element follows from where the element is: one frame for each
element around it that makes one (`kindsAt`).  So **an element of the format is always in its
place** and closes what it has opened.  Only the parameters of editors, which are looked for
anywhere, can be out of place.

`visits` lists the calls for an element with the paths they are made at, and `AllAlong` says
something of every call that is reached.  The induction is on the element, and carries along that
the frames are those of its place (`allAlong_visits`).
-/

set_option autoImplicit false

namespace ComponentCatalog

open Xml

/-! ## Visits -/

/-- A call with the path of the element that it is made for. -/
structure Visit where
  path : String
  call : Call

namespace Rules

variable {rules : List Rule}

mutual

/-- The calls for an element with a path and for all elements in it, each with its path. -/
def visits (rules : List Rule) (path : String) : Element → List Visit
  | ⟨name, attributes, text, children⟩ =>
    let element := ⟨name, attributes, text, children⟩
    let matching := rules.filter (·.matches path)
    matching.map (⟨path, ·, true, element⟩) ++ childVisits rules path children ++
      matching.reverse.map (⟨path, ·, false, element⟩)

/-- The calls for the children of an element with a path, each with its path. -/
def childVisits (rules : List Rule) (path : String) : List Element → List Visit
  | [] => []
  | child :: rest =>
    visits rules (childPath path child.name) child ++ childVisits rules path rest

end

mutual

theorem map_call_visits (path : String) :
    ∀ e : Element, (visits rules path e).map (·.call) = calls rules path e
  | ⟨name, attributes, text, children⟩ => by
    simp [visits, calls, map_call_childVisits path children, Function.comp_def]

theorem map_call_childVisits (path : String) :
    ∀ children : List Element,
      (childVisits rules path children).map (·.call) = childCalls rules path children
  | [] => by rw [childVisits, childCalls, List.map_nil]
  | child :: rest => by
    rw [childVisits, childCalls, List.map_append, map_call_visits _ child,
      map_call_childVisits path rest]

end

/-- Makes the calls of visits. -/
def runVisits (visits : List Visit) (r : Reading) : Except Failure Reading :=
  run (visits.map (·.call)) r

theorem runVisits_cons (v : Visit) (visits : List Visit) (r : Reading) :
    runVisits (v :: visits) r = v.call.run r >>= runVisits visits := by
  rw [runVisits, List.map_cons, run_cons]
  rfl

theorem runVisits_append (visits more : List Visit) (r : Reading) :
    runVisits (visits ++ more) r = runVisits visits r >>= runVisits more := by
  rw [runVisits, List.map_append]
  exact run_append _ _ r

/-- `P` holds of every visit that is reached, with the state it is reached in. -/
def AllAlong (P : Visit → Reading → Prop) : List Visit → Reading → Prop
  | [], _ => True
  | v :: visits, r => P v r ∧ ∀ r', v.call.run r = .ok r' → AllAlong P visits r'

variable {P : Visit → Reading → Prop}

theorem allAlong_append {visits more : List Visit} {r : Reading} :
    AllAlong P (visits ++ more) r ↔
      AllAlong P visits r ∧ ∀ r', runVisits visits r = .ok r' → AllAlong P more r' := by
  induction visits generalizing r with
  | nil =>
    refine ⟨fun h ↦ ⟨trivial, fun r' hr ↦ ?_⟩, fun h ↦ h.2 r rfl⟩
    obtain rfl := Except.ok.inj hr
    exact h
  | cons v visits ih =>
    rw [List.cons_append, AllAlong, AllAlong, and_assoc]
    refine and_congr_right fun _ ↦ ⟨fun h ↦ ⟨fun r' hr ↦ (ih.mp (h r' hr)).1, fun r' hr ↦ ?_⟩,
      fun h r' hr ↦ ih.mpr ⟨h.1 r' hr, fun s hs ↦ h.2 s ?_⟩⟩
    · rw [runVisits_cons] at hr
      obtain ⟨s, hs, hr⟩ := bind_eq_ok_iff.mp hr
      exact (ih.mp (h s hs)).2 r' hr
    · rw [runVisits_cons, hr]
      exact hs

/-- Along calls that keep `I`, which entails `P`. -/
theorem allAlong_of_keeps {I : Reading → Prop} {visits : List Visit}
    (hP : ∀ v ∈ visits, ∀ r, I r → P v r)
    (hkeeps : ∀ v ∈ visits, ∀ r, I r → SucceedsIn I (v.call.run r)) {r : Reading} (hr : I r) :
    AllAlong P visits r ∧ SucceedsIn I (runVisits visits r) := by
  induction visits generalizing r with
  | nil => exact ⟨trivial, succeedsIn_ok.mpr hr⟩
  | cons v visits ih =>
    have ih := @ih (fun v' hv' ↦ hP v' (List.mem_cons_of_mem _ hv'))
      fun v' hv' ↦ hkeeps v' (List.mem_cons_of_mem _ hv')
    have hv := hkeeps v List.mem_cons_self r hr
    refine ⟨⟨hP v List.mem_cons_self r hr, fun r' h ↦ (ih (hv r' h)).1⟩, ?_⟩
    rw [runVisits_cons]
    exact succeedsIn_bind_iff.mpr fun r' h ↦ (ih (hv r' h)).2

/-- A visit that is reached, wherever it is in the list. -/
theorem AllAlong.of_append {before after : List Visit} {v : Visit} {r s : Reading}
    (h : AllAlong P (before ++ v :: after) r) (hs : runVisits before r = .ok s) : P v s :=
  ((allAlong_append.mp h).2 s hs).1

/-- A run fails as one of its calls does. -/
theorem AllAlong.failsIn {Q : Failure → Prop} {visits : List Visit} {r : Reading}
    (hP : ∀ v s, P v s → FailsIn Q (v.call.run s)) (h : AllAlong P visits r) :
    FailsIn Q (runVisits visits r) := by
  induction visits generalizing r with
  | nil => exact failsIn_ok r
  | cons v visits ih =>
    rw [runVisits_cons]
    exact (hP v r h.1).bind fun r' hr ↦ ih (h.2 r' hr)

end Rules

/-! ## Elements in their places -/

/-- The frames that are open are of the kinds given. -/
def Reading.HasKinds (r : Reading) (kinds : List String) : Prop := r.frames.map (·.name) = kinds

theorem Reading.HasKinds.topKind? {r : Reading} {kinds : List String} (h : r.HasKinds kinds) :
    r.topKind? = kinds.head? := by
  rw [← h, List.head?_map]
  rfl

theorem SameShape.hasKinds {r r' : Reading} {kinds : List String}
    (h : SameShape r.frames r'.frames) (hr : r.HasKinds kinds) : r'.HasKinds kinds :=
  h.names.trans hr

theorem kindsAt_eq (names : List String) :
    kindsAt names = (frameAt? names).toList ++ kindsAt names.tail := by
  cases names with
  | nil => rfl
  | cons name outer => rw [kindsAt, List.tail_cons]

/-- What a visit can come to: an element that opens fails for an attribute, or it is for a parameter
of an editor and the innermost frame has none; an element that closes does not fail. -/
structure Visit.Fine (v : Visit) (r : Reading) : Prop where
  opens : v.call.opens = true → FailsIn (fun f ↦ f.IsAttribute ∨ f.IsMisplaced ∧
    IsEditorParameter v.path ∧ ∀ kind ∈ StandardRules.parameterized, r.topKind? ≠ some kind)
    (v.call.run r)
  closes : v.call.opens = false → ∃ r', v.call.run r = .ok r'

namespace StandardRules

open Rules

variable {names : List String} {rule : Rule} {e : Element} {r : Reading}

theorem fine_opening (hnames : ∀ name ∈ names, Plain name) (hrule : rule ∈ standardRules)
    (hmatches : rule.matches (pathOf names)) (hr : r.HasKinds (kindsAt names.tail)) :
    Visit.Fine ⟨pathOf names, rule, true, e⟩ r := by
  refine ⟨fun _ ↦ ?_, nofun⟩
  obtain hstands | ⟨hanywhere, hpath⟩ := standsAt_of_matches hnames hrule hmatches
  · exact ((hstands.obeys.onOpen e).fails_in_place hr.topKind?).mono fun _ ↦ .inl
  · by_cases htop : ∃ kind ∈ parameterized, r.topKind? = some kind
    · obtain ⟨kind, hkind, htop⟩ := htop
      have hobeys := anywhereRules_obey hkind hanywhere
      exact ((hobeys.onOpen e).fails_in_place htop).mono fun _ ↦ .inl
    · have hobeys := anywhereRules_obey (.head _) hanywhere
      refine ((hobeys.onOpen e).fails r).mono fun f hf ↦ hf.imp_right fun hmisplaced ↦ ?_
      exact ⟨hmisplaced, hpath, fun kind hkind h ↦ htop ⟨kind, hkind, h⟩⟩

theorem fine_closing (hnames : ∀ name ∈ names, Plain name) (hrule : rule ∈ standardRules)
    (hmatches : rule.matches (pathOf names)) (hr : r.HasKinds (kindsAt names)) :
    Visit.Fine ⟨pathOf names, rule, false, e⟩ r := by
  refine ⟨nofun, fun _ ↦ ?_⟩
  obtain hstands | ⟨hanywhere, hpath⟩ := standsAt_of_matches hnames hrule hmatches
  · have hclose := hstands.obeys.onClose e
    rw [kindsAt_eq] at hr
    cases hframe : frameAt? names with
    | none =>
      rw [hframe] at hr hclose
      exact hclose.succeeds_in_place (r := r) hr.topKind? (.refl _)
    | some kind =>
      rw [hframe] at hr hclose
      obtain ⟨frame, rest, hframes, hkind, hrest⟩ := List.map_eq_cons_iff.mp hr
      have htop : rest.head?.map (·.name) = (kindsAt names.tail).head? :=
        List.head?_map.symm.trans (congrArg List.head? hrest)
      exact hclose.succeeds_in_place htop ⟨frame, hkind, hframes⟩
  · have hobeys := anywhereRules_obey (.head _) hanywhere
    exact ⟨r, (hobeys.onClose e).eq_ok_of_none r⟩

/-- At a place without a frame, the rules that match keep the kinds. -/
theorem allAlong_matching (hnames : ∀ name ∈ names, Plain name) (hframe : frameAt? names = none)
    {matching : List Rule}
    (hmatching : ∀ rule ∈ matching, rule ∈ standardRules ∧ rule.matches (pathOf names))
    (opens : Bool) (hr : r.HasKinds (kindsAt names)) :
    AllAlong Visit.Fine (matching.map (⟨pathOf names, ·, opens, e⟩)) r ∧
      SucceedsIn (·.HasKinds (kindsAt names))
        (runVisits (matching.map (⟨pathOf names, ·, opens, e⟩)) r) := by
  have hkinds : kindsAt names = kindsAt names.tail := by rw [kindsAt_eq, hframe]; rfl
  refine allAlong_of_keeps (fun v hv s hs ↦ ?_) (fun v hv s hs ↦ ?_) hr
  · obtain ⟨rule, hrule, rfl⟩ := List.mem_map.mp hv
    obtain ⟨hrule, hmatches⟩ := hmatching rule hrule
    cases opens with
    | true => exact fine_opening hnames hrule hmatches (hkinds ▸ hs)
    | false => exact fine_closing hnames hrule hmatches hs
  · obtain ⟨rule, hrule, rfl⟩ := List.mem_map.mp hv
    obtain ⟨hrule, hmatches⟩ := hmatching rule hrule
    have hnests : rule.Nests none := by
      obtain hstands | ⟨hanywhere, -⟩ := standsAt_of_matches hnames hrule hmatches
      · rw [← hframe]
        exact hstands.obeys.nests
      · exact (anywhereRules_obey (.head _) hanywhere).nests
    cases opens with
    | true => exact (hnests.onOpen e s).mono fun s' hs' ↦ SameShape.hasKinds hs' hs
    | false => exact (hnests.onClose e s).mono fun s' hs' ↦ SameShape.hasKinds hs' hs

/-- The calls for an element are fine if those for its children are. -/
theorem allAlong_element (hnames : ∀ name ∈ names, Plain name) {inner : List Visit}
    (hinner : ∀ s : Reading, s.HasKinds (kindsAt names) → AllAlong Visit.Fine inner s ∧
      SucceedsIn (·.HasKinds (kindsAt names)) (runVisits inner s))
    (hr : r.HasKinds (kindsAt names.tail)) :
    AllAlong Visit.Fine
      ((standardRules.filter (·.matches (pathOf names))).map (⟨pathOf names, ·, true, e⟩) ++
        inner ++
        (standardRules.filter (·.matches (pathOf names))).reverse.map
          (⟨pathOf names, ·, false, e⟩)) r := by
  cases hframe : frameAt? names with
  | none =>
    have hmatching : ∀ rule ∈ standardRules.filter (·.matches (pathOf names)),
        rule ∈ standardRules ∧ rule.matches (pathOf names) := fun _ ↦ List.mem_filter.mp
    have hkinds : kindsAt names = kindsAt names.tail := by rw [kindsAt_eq, hframe]; rfl
    obtain ⟨hopens, hopened⟩ := allAlong_matching hnames hframe hmatching true (hkinds ▸ hr)
    rw [allAlong_append, allAlong_append]
    refine ⟨⟨hopens, fun s hs ↦ (hinner s (hopened s hs)).1⟩, fun s hs ↦ ?_⟩
    rw [runVisits_append] at hs
    obtain ⟨m, hm, hs⟩ := bind_eq_ok_iff.mp hs
    have hclosed := (hinner m (hopened m hm)).2 s hs
    refine (allAlong_matching hnames hframe (fun rule hrule ↦ ?_) false hclosed).1
    exact hmatching rule (List.mem_reverse.mp hrule)
  | some kind =>
    obtain ⟨rule, hfilter, hstands⟩ := exists_filter_eq_of_frameAt? hnames hframe
    have hrule : rule ∈ standardRules.filter (·.matches (pathOf names)) := by
      rw [hfilter]
      exact List.mem_cons_self
    obtain ⟨hrule, hmatches⟩ := List.mem_filter.mp hrule
    rw [hfilter, List.reverse_singleton, List.map_singleton, List.map_singleton,
      List.singleton_append, List.cons_append]
    refine ⟨fine_opening hnames hrule hmatches hr, fun s hs ↦ ?_⟩
    have hopened : s.HasKinds (kindsAt names) := by
      have hopen := (hstands.obeys.onOpen e).opened r s hs
      rw [hframe] at hopen
      obtain ⟨frame, hkind, hframes⟩ := hopen
      rw [kindsAt_eq, hframe, Reading.HasKinds, hframes, List.map_cons, hkind, hr]
      rfl
    rw [allAlong_append]
    refine ⟨(hinner s hopened).1, fun m hm ↦ ⟨?_, fun _ _ ↦ trivial⟩⟩
    exact fine_closing hnames hrule hmatches ((hinner s hopened).2 m hm)

theorem succeedsIn_childVisits {kinds : List String} (path : String) (children : List Element)
    (hr : r.HasKinds kinds) :
    SucceedsIn (·.HasKinds kinds) (runVisits (childVisits standardRules path children) r) := by
  rw [runVisits, map_call_childVisits]
  exact (balanced_childCalls standardRules_nest path children r).mono fun r' h ↦ h.hasKinds hr

mutual

/-- Every call for an element at a place is fine if the frames around it are those of its place. -/
theorem allAlong_visits :
    ∀ (e : Element) (names : List String), (∀ name ∈ names, Plain name) →
      (∀ child ∈ e.children, child.Plain) →
      ∀ r : Reading, r.HasKinds (kindsAt names.tail) →
        AllAlong Visit.Fine (visits standardRules (pathOf names) e) r
  | ⟨name, attributes, text, children⟩, names, hnames, hchildren, r, hr => by
    rw [visits]
    refine allAlong_element hnames (fun s hs ↦ ⟨?_, succeedsIn_childVisits _ children hs⟩) hr
    exact allAlong_childVisits children names hnames hchildren s hs

theorem allAlong_childVisits :
    ∀ (children : List Element) (names : List String), (∀ name ∈ names, Plain name) →
      (∀ child ∈ children, child.Plain) →
      ∀ r : Reading, r.HasKinds (kindsAt names) →
        AllAlong Visit.Fine (childVisits standardRules (pathOf names) children) r
  | [], _, _, _, r, _ => by
    rw [childVisits]
    trivial
  | child :: rest, names, hnames, hplain, r, hr => by
    rw [List.forall_mem_cons, Element.plain_iff] at hplain
    obtain ⟨⟨hname, hchild⟩, hrest⟩ := hplain
    rw [childVisits, allAlong_append]
    have hnames' : ∀ name ∈ child.name :: names, Plain name :=
      List.forall_mem_cons.mpr ⟨hname, hnames⟩
    refine ⟨allAlong_visits child _ hnames' hchild r hr, fun r' hrun ↦ ?_⟩
    rw [runVisits, map_call_visits] at hrun
    have hshape := balanced_calls standardRules_nest _ child r r' hrun
    exact allAlong_childVisits rest names hnames hrest r' (hshape.hasKinds hr)

end

/-- From the root, every call is fine. -/
theorem allAlong_root {root : Element} (hroot : root.Plain) :
    AllAlong Visit.Fine (visits standardRules rootName root) {} :=
  allAlong_visits root [] nofun (Element.plain_iff.mp hroot).2 {} rfl

/-- A component that cannot be read lacks an attribute, or has a misplaced element. -/
theorem apply_fails {root : Element} (hroot : root.name = rootName) (hplain : root.Plain) :
    FailsIn (fun f ↦ f.IsAttribute ∨ f.IsMisplaced) (apply standardRules root) := by
  rw [apply, if_pos hroot, ← map_call_visits]
  refine FailsIn.bind ?_ fun r hr ↦ ?_
  · refine (allAlong_root hplain).failsIn fun v s hfine ↦ ?_
    cases hopens : v.call.opens with
    | true => exact (hfine.opens hopens).mono fun f hf ↦ hf.imp_right And.left
    | false =>
      obtain ⟨s', hs'⟩ := hfine.closes hopens
      rw [hs']
      exact failsIn_ok s'
  · rw [map_call_visits] at hr
    rw [Reading.finish, (balanced_calls standardRules_nest rootName root {} r hr).eq_nil]
    exact failsIn_ok _

end StandardRules

open Rules StandardRules in
/-- **Frames nest like elements, and an element finds the frame that it belongs to.**  Reading an
element leaves the frames as many, of the same kinds, and untouched below the innermost one.  In a
component whose names have no slashes, as it is in every document, nothing is closed that was not
opened, nothing stays open, no element that closes fails, and only a parameter of an editor can be
misplaced, where the innermost frame is neither an editor nor a configurable property. -/
theorem standardRules_frames :
    (∀ (path : String) (e : Element) (r r' : Reading),
      run (calls standardRules path e) r = .ok r' →
        r'.depth = r.depth ∧ r'.frames.map (·.name) = r.frames.map (·.name) ∧
          r'.frames.tail = r.frames.tail) ∧
    (∀ bytes root, Xml.read bytes = some root → root.Plain) ∧
    ∀ root : Element, root.name = rootName → root.Plain →
      (∀ e, apply standardRules root ≠ .error (.emptyStack e)) ∧
      (∀ frame, apply standardRules root ≠ .error (.unterminated frame)) ∧
      ∀ (before after : List Visit) (v : Visit) (r : Reading),
        visits standardRules rootName root = before ++ v :: after → runVisits before {} = .ok r →
          (v.call.opens = false → ∃ r', v.call.run r = .ok r') ∧
          ∀ e found?, v.call.run r = .error (.misplaced e found?) →
            IsEditorParameter v.path ∧
              r.topKind? ≠ some "editor" ∧ r.topKind? ≠ some "configurable property" := by
  refine ⟨fun path e r r' hrun ↦ ?_, fun _ _ ↦ plain_of_read, fun root hroot hplain ↦
    ⟨fun e h ↦ ?_, fun frame h ↦ ?_, ?_⟩⟩
  · have hshape := balanced_calls standardRules_nest path e r r' hrun
    exact ⟨hshape.length_eq, hshape.names, hshape.below⟩
  · obtain hf | hf := apply_fails hroot hplain _ h
    · exact absurd (hf.symm.trans (Failure.last?_emptyStack e)) (by decide)
    · exact absurd (hf.last?.symm.trans (Failure.last?_emptyStack e)) (by decide)
  · obtain hf | hf := apply_fails hroot hplain _ h
    · exact absurd (hf.symm.trans (Failure.last?_unterminated frame)) (by decide)
    · exact absurd (hf.last?.symm.trans (Failure.last?_unterminated frame)) (by decide)
  · intro before after v r hvisits hrun
    have halong := allAlong_root hplain
    rw [hvisits] at halong
    have hfine := halong.of_append hrun
    refine ⟨hfine.closes, fun e found? h ↦ ?_⟩
    cases hopens : v.call.opens with
    | false =>
      obtain ⟨r', hr'⟩ := hfine.closes hopens
      rw [hr'] at h
      cases h
    | true =>
      obtain hattribute | ⟨-, hpath, htop⟩ := hfine.opens hopens _ h
      · have hlast := (Failure.isMisplaced_misplaced e found?).last?
        exact absurd (hattribute.symm.trans hlast) (by decide)
      · exact ⟨hpath, htop _ (.head _), htop _ (.tail _ (.head _))⟩

open Rules StandardRules in
/-- Under the root of a component, an editor is no editor. -/
theorem standardRules_frames_outside :
    let parameter : Element := { name := "parameter", attributes := .ofList [("name", "width")] }
    let root : Element :=
      { name := "component", children := [{ name := "editor", children := [parameter] }] }
    ∃ v after, visits standardRules rootName root = v :: after ∧
      v.call.run {} = .error (.misplaced parameter none) ∧ IsEditorParameter v.path := by
  intro parameter root
  have hfirst : (visits standardRules rootName root).head?.bind (failureOf? <| ·.call.run {}) =
      some (.misplaced parameter none) := by
    decide +kernel
  obtain ⟨v, hhead, hfails⟩ := Option.bind_eq_some_iff.mp hfirst
  have hrun := failureOf?_eq_some_iff.mp hfails
  obtain ⟨after, hvisits⟩ := List.head?_eq_some_iff.mp hhead
  have hplaced := (standardRules_frames.2.2 root rfl (by decide)).2.2 [] after v {} hvisits rfl
  exact ⟨v, after, hvisits, hrun, (hplaced.2 parameter none hrun).1⟩

end ComponentCatalog
