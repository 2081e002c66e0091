import Mathlib.Data.List.Infix
import Mathlib.Logic.Relation
import ComponentCatalog.Proofs.ClassModel.Normalization
import ComponentCatalog.Proofs.Outcome
import ComponentCatalog.Resolver.Resolution

/-!
# The order in which icons are sought

A class without an icon of its own takes that of a class that it comes from.  They are tried
**depth first**: a class, then each of its interfaces in their order with all that it comes from in
turn, then its superclass (`ClassPath.DepthFirst`).  A name that is not on the class path is tried
like the others and leads no further.

`Resolver.withIcon_depthFirst` says that a description gets the icon of the first name in this order
that has one, wherever following interfaces and superclasses does not lead in a circle; exactly then
there is such an order (`ClassPath.neverLoops_iff`).

On a circle the search need not end.  What it does is to search a name again whenever it comes up,
and `ClassPath.SearchesTo` says what that comes to, if to anything.  **The icon of a class is what
the search comes to, and it comes to nothing only where the search has no end**
(`ClassPath.iconOf?_eq_ok_iff`, `ClassPath.iconOf?_eq_error_iff`).  So to give up at a name that is
on the way is not a choice: a name that needs itself is searched for ever
(`ClassPath.SearchesTo.not_transGen_needs`), since what a search that ends needs is well-founded.
-/

set_option autoImplicit false

namespace ComponentCatalog

open Relation

namespace ClassPath

variable {cp : ClassPath} {name n : String} {names own order others rest seen : List String}

/-! ## Depth-first order -/

/-- What a name comes from: the interfaces of its class and then the superclass. -/
def parents (cp : ClassPath) (name : String) : List String :=
  match cp.find? name with
  | some c => c.interfaces ++ c.superclass?.toList
  | none => []

/-- The second name is an interface or the superclass of the class of the first one. -/
def ComesFrom (cp : ClassPath) (name parent : String) : Prop := parent ∈ cp.parents name

/-- No name that `name` comes from, itself included, comes from itself. -/
def NeverLoops (cp : ClassPath) (name : String) : Prop :=
  ∀ n, ReflTransGen cp.ComesFrom name n → ¬TransGen cp.ComesFrom n n

/-- The order in which names are tried: one after the other, each followed by what it comes from. -/
inductive DepthFirst (cp : ClassPath) : List String → List String → Prop where
  | nil : DepthFirst cp [] []
  | cons {name : String} {rest own others : List String}
      (hown : DepthFirst cp (cp.parents name) own) (hothers : DepthFirst cp rest others) :
      DepthFirst cp (name :: rest) (name :: (own ++ others))

namespace DepthFirst

theorem cons_of_parents_eq (hparents : cp.parents name = names) (hown : cp.DepthFirst names own)
    (hothers : cp.DepthFirst rest others) :
    cp.DepthFirst (name :: rest) (name :: (own ++ others)) :=
  .cons (hparents ▸ hown) hothers

theorem unique (h : cp.DepthFirst names order) :
    ∀ {other}, cp.DepthFirst names other → other = order := by
  induction h with
  | nil => rintro _ ⟨⟩; rfl
  | cons hown hothers ihown ihothers =>
    rintro _ (_ | ⟨hown', hothers'⟩)
    rw [ihown hown', ihothers hothers']

/-- What is tried after a name stands after it in every order that it is in. -/
theorem exists_infix (h : cp.DepthFirst names order) (hn : n ∈ order) :
    ∃ own, cp.DepthFirst (cp.parents n) own ∧ n :: own <:+: order := by
  induction h with
  | nil => cases hn
  | @cons name rest own others hown hothers ihown ihothers =>
    rw [List.mem_cons, List.mem_append] at hn
    rcases hn with rfl | hn | hn
    · exact ⟨own, hown, (List.prefix_append _ _).isInfix⟩
    · obtain ⟨own', hown', hinfix⟩ := ihown hn
      exact ⟨own', hown', hinfix.trans ⟨[name], others, rfl⟩⟩
    · obtain ⟨own', hown', hinfix⟩ := ihothers hn
      exact ⟨own', hown', hinfix.trans (List.suffix_append (name :: own) others).isInfix⟩

/-- A name is not among those that are tried after it. -/
theorem not_mem (h : cp.DepthFirst (cp.parents name) own) : name ∉ own := by
  intro hmem
  obtain ⟨own', hown', hinfix⟩ := h.exists_infix hmem
  obtain rfl := h.unique hown'
  exact absurd hinfix.length_le (Nat.not_succ_le_self _)

theorem mem_iff (h : cp.DepthFirst names order) :
    n ∈ order ↔ ∃ name ∈ names, ReflTransGen cp.ComesFrom name n := by
  induction h with
  | nil => simp
  | @cons name rest own others hown hothers ihown ihothers =>
    rw [List.mem_cons, List.mem_append, ihown, ihothers, List.exists_mem_cons_iff,
      ReflTransGen.cases_head_iff, ← or_assoc, eq_comm]
    rfl

end DepthFirst

theorem parents_of_find?_eq_none (h : cp.find? name = none) : cp.parents name = [] := by
  rw [parents, h]

theorem parents_of_find?_eq_some {c : ClassDecl} (h : cp.find? name = some c) :
    cp.parents name = c.interfaces ++ c.superclass?.toList := by
  rw [parents, h]

theorem exists_depthFirst_of_forall (h : ∀ n ∈ names, ∃ order, cp.DepthFirst [n] order) :
    ∃ order, cp.DepthFirst names order := by
  induction names with
  | nil => exact ⟨[], .nil⟩
  | cons n names ih =>
    obtain ⟨hn, hnames⟩ := List.forall_mem_cons.mp h
    obtain ⟨_, _ | ⟨hown, -⟩⟩ := hn
    obtain ⟨others, hothers⟩ := ih hnames
    exact ⟨_, .cons hown hothers⟩

/-- Without circles there is an order for every name that is reached.  The names on the way to it
fall short of the whole class path, since the name is not one of them. -/
theorem NeverLoops.exists_depthFirst {start : String} (h : cp.NeverLoops start) (way : List String)
    (name : String) (hreached : ReflTransGen cp.ComesFrom start name)
    (hway : ∀ n ∈ way, TransGen cp.ComesFrom n name) : ∃ order, cp.DepthFirst [name] order := by
  obtain ⟨own, hown⟩ : ∃ own, cp.DepthFirst (cp.parents name) own := by
    cases hfind : cp.find? name with
    | none =>
      rw [parents_of_find?_eq_none hfind]
      exact ⟨[], .nil⟩
    | some c =>
      have hnew : name ∉ way := fun hmem ↦ h name hreached (hway name hmem)
      have hless := unseen_lt_of_find? hfind hnew
      refine exists_depthFirst_of_forall fun n hn ↦ ?_
      have hcomes : cp.ComesFrom name n := hn
      refine h.exists_depthFirst (name :: way) n (hreached.tail hcomes) ?_
      exact List.forall_mem_cons.mpr ⟨.single hcomes, fun k hk ↦ (hway k hk).tail hcomes⟩
  exact ⟨_, .cons hown .nil⟩
termination_by cp.unseen way

theorem neverLoops_iff : cp.NeverLoops name ↔ ∃ order, cp.DepthFirst [name] order := by
  constructor
  · exact fun h ↦ h.exists_depthFirst [] name .refl (List.forall_mem_nil _)
  · rintro ⟨order, horder⟩ n hreached hloop
    have hmem : n ∈ order := horder.mem_iff.mpr ⟨name, List.mem_singleton_self _, hreached⟩
    obtain ⟨own, hown, -⟩ := horder.exists_infix hmem
    obtain ⟨parent, hparent, hback⟩ := TransGen.head'_iff.mp hloop
    exact hown.not_mem (hown.mem_iff.mpr ⟨parent, hparent, hback⟩)

/-! ## The search -/

variable {l : Locator} {icon : Icon} {icon? : Option Icon} {start : String} {way : List String}

/-- What comes of searching names one after the other, where what a name comes from is searched
before the next name.  Nothing is kept in mind: a name that comes up again is searched again.  So
where this comes to nothing, the search never ends. -/
inductive SearchesTo (cp : ClassPath) (l : Locator) : List String → Option Icon → Prop where
  | nil : SearchesTo cp l [] none
  | found {name : String} {rest : List String} {icon : Icon}
      (hicon : l.findIcon name "" = some icon) : SearchesTo cp l (name :: rest) (some icon)
  | inherited {name : String} {rest : List String} {icon : Icon}
      (hicon : l.findIcon name "" = none)
      (hparents : SearchesTo cp l (cp.parents name) (some icon)) :
      SearchesTo cp l (name :: rest) (some icon)
  | next {name : String} {rest : List String} {icon? : Option Icon}
      (hicon : l.findIcon name "" = none) (hparents : SearchesTo cp l (cp.parents name) none)
      (hrest : SearchesTo cp l rest icon?) : SearchesTo cp l (name :: rest) icon?

/-- To search for the icon of a name comes to an end. -/
def SearchEnds (cp : ClassPath) (l : Locator) (name : String) : Prop :=
  ∃ icon?, cp.SearchesTo l [name] icon?

/-- A name has no icon, and neither has what is searched for it before the other name is. -/
def Needs (cp : ClassPath) (l : Locator) (name other : String) : Prop :=
  l.findIcon name "" = none ∧
    ∃ before after, cp.parents name = before ++ other :: after ∧ cp.SearchesTo l before none

theorem findIcon_of_searchesTo_none (h : cp.SearchesTo l (name :: rest) none) :
    l.findIcon name "" = none ∧ cp.SearchesTo l (cp.parents name) none ∧
      cp.SearchesTo l rest none := by
  cases h with
  | next hicon hparents hrest => exact ⟨hicon, hparents, hrest⟩

namespace SearchesTo

theorem unique (h : cp.SearchesTo l names icon?) :
    ∀ {other}, cp.SearchesTo l names other → other = icon? := by
  induction h with
  | nil => rintro _ ⟨⟩; rfl
  | found hicon =>
    rintro _ (_ | ⟨hicon'⟩ | ⟨hicon'⟩ | ⟨hicon'⟩)
    · exact hicon'.symm.trans hicon
    · cases hicon.symm.trans hicon'
    · cases hicon.symm.trans hicon'
  | inherited hicon _ ih =>
    rintro _ (_ | ⟨hicon'⟩ | ⟨_, hparents⟩ | ⟨_, hparents⟩)
    · cases hicon.symm.trans hicon'
    · exact ih hparents
    · cases ih hparents
  | next hicon _ _ ih ihrest =>
    rintro _ (_ | ⟨hicon'⟩ | ⟨_, hparents⟩ | ⟨_, _, hrest⟩)
    · cases hicon.symm.trans hicon'
    · cases ih hparents
    · exact ihrest hrest

/-- Where a search comes to something, what it needs does not go on for ever: neither for a name
of the list, if those before it have no icon, nor for what is searched for that one. -/
theorem acc (h : cp.SearchesTo l names icon?) :
    ∀ before n after, names = before ++ n :: after → cp.SearchesTo l before none →
      Acc (fun other name ↦ cp.Needs l name other) n := by
  induction h with
  | nil => intro before n after heq; simp at heq
  | found hicon =>
    rintro (_ | ⟨_, before⟩) n after ⟨⟩ hbefore
    · exact .intro _ fun _ hneeds ↦ absurd (hicon.symm.trans hneeds.1) (Option.some_ne_none _)
    · have hnone := hicon.symm.trans (findIcon_of_searchesTo_none hbefore).1
      cases hnone
  | inherited hicon hparents ih =>
    rintro (_ | ⟨_, before⟩) n after ⟨⟩ hbefore
    · exact .intro _ fun other ⟨_, before, after, heq, hnone⟩ ↦ ih before other after heq hnone
    · cases hparents.unique (findIcon_of_searchesTo_none hbefore).2.1
  | next hicon hparents hrest ih ihrest =>
    rintro (_ | ⟨_, before⟩) n after ⟨⟩ hbefore
    · exact .intro _ fun other ⟨_, before, after, heq, hnone⟩ ↦ ih before other after heq hnone
    · exact ihrest before n after rfl (findIcon_of_searchesTo_none hbefore).2.2

/-- A name that needs itself is searched for ever. -/
theorem not_transGen_needs (h : cp.SearchesTo l (name :: rest) icon?) :
    ¬TransGen (cp.Needs l) name name :=
  fun hneeds ↦ not_transGen_self (h.acc [] _ _ rfl .nil) (transGen_swap.mp hneeds)

end SearchesTo

theorem searchIcon_nil (cp : ClassPath) (l : Locator) (start : String) (way : List String) :
    cp.searchIcon l start way [] = .ok none := by
  rw [searchIcon]

theorem searchIcon_of_icon (h : l.findIcon name "" = some icon) :
    cp.searchIcon l start way (name :: rest) = .ok (some icon) := by
  rw [searchIcon, h]

/-- A name that is not on the way is searched with what it comes from, and then the next one. -/
theorem searchIcon_of_not_mem (hicon : l.findIcon name "" = none) (hnew : name ∉ way) :
    cp.searchIcon l start way (name :: rest) =
      cp.searchIcon l start (name :: way) (cp.parents name) >>= fun
        | some icon => .ok (some icon)
        | none => cp.searchIcon l start way rest := by
  rw [searchIcon, hicon]
  dsimp only
  rw [dif_neg hnew]
  split
  · rename_i hfind
    rw [parents_of_find?_eq_none hfind, searchIcon_nil]
    rfl
  · rename_i c hfind
    rw [parents_of_find?_eq_some hfind]
    rfl

/-- Each name on the way needs those of the names that are searched: the first one, and each that
only has names before it for which there is no icon. -/
def Awaits (cp : ClassPath) (l : Locator) (way names : List String) : Prop :=
  ∀ w ∈ way, ∀ before n after, names = before ++ n :: after → cp.SearchesTo l before none →
    TransGen (cp.Needs l) w n

namespace Awaits

theorem nil (names : List String) : cp.Awaits l [] names :=
  List.forall_mem_nil _

theorem head (h : cp.Awaits l way (name :: rest)) : ∀ w ∈ way, TransGen (cp.Needs l) w name :=
  fun w hw ↦ h w hw [] name rest rfl .nil

/-- A name is not on the way if its search ends, since it would need itself. -/
theorem not_mem (h : cp.Awaits l way (name :: rest)) (hends : cp.SearchesTo l [name] icon?) :
    name ∉ way :=
  fun hmem ↦ hends.not_transGen_needs (h.head name hmem)

/-- What a name comes from is awaited by that name too. -/
theorem parents (h : cp.Awaits l way (name :: rest)) (hicon : l.findIcon name "" = none) :
    cp.Awaits l (name :: way) (cp.parents name) := by
  intro w hw before n after heq hnone
  have hneeds : cp.Needs l name n := ⟨hicon, before, after, heq, hnone⟩
  rcases List.mem_cons.mp hw with rfl | hw
  · exact .single hneeds
  · exact (h.head w hw).tail hneeds

/-- After a name without an icon the next one is awaited. -/
theorem tail (h : cp.Awaits l way (name :: rest)) (hicon : l.findIcon name "" = none)
    (hparents : cp.SearchesTo l (cp.parents name) none) : cp.Awaits l way rest :=
  fun w hw before n after heq hnone ↦
    h w hw (name :: before) n after (congrArg _ heq) (.next hicon hparents hnone)

end Awaits

/-- A search that comes to something is made: no name comes up that is on the way. -/
theorem SearchesTo.searchIcon_eq (h : cp.SearchesTo l names icon?) :
    ∀ way, cp.Awaits l way names → cp.searchIcon l start way names = .ok icon? := by
  induction h with
  | nil => exact fun way _ ↦ searchIcon_nil cp l start way
  | found hicon => exact fun way _ ↦ searchIcon_of_icon hicon
  | inherited hicon h ih =>
    intro way hway
    have hnew := hway.not_mem (.inherited hicon h)
    rw [searchIcon_of_not_mem hicon hnew, ih _ (hway.parents hicon)]
    rfl
  | next hicon h hrest ih ihrest =>
    intro way hway
    have hnew := hway.not_mem (.next hicon h .nil)
    rw [searchIcon_of_not_mem hicon hnew, ih _ (hway.parents hicon)]
    exact ihrest way (hway.tail hicon h)

/-- What the search finds is what it comes to. -/
theorem searchesTo_of_searchIcon (h : cp.searchIcon l start way names = .ok icon?) :
    cp.SearchesTo l names icon? := by
  fun_induction searchIcon cp l start way names generalizing icon? with
  | case1 =>
    obtain rfl := Except.ok.inj h
    exact .nil
  | case2 way name rest icon hicon =>
    obtain rfl := Except.ok.inj h
    exact .found hicon
  | case3 => cases h
  | case4 way name rest hicon _ hfind ihrest =>
    refine .next hicon ?_ (ihrest h)
    rw [parents_of_find?_eq_none hfind]
    exact .nil
  | case5 way name rest hicon _ c hfind ih ihrest =>
    rw [← parents_of_find?_eq_some hfind] at h ih
    obtain ⟨found?, hfound, h⟩ := bind_eq_ok_iff.mp h
    cases found? with
    | some icon =>
      obtain rfl := Except.ok.inj h
      exact .inherited hicon (ih hfound)
    | none => exact .next hicon (ih hfound) (ihrest h)

theorem searchIcon_fails (cp : ClassPath) (l : Locator) (start : String) (way names : List String) :
    FailsIn (· = .endlessSearch start) (cp.searchIcon l start way names) := by
  fun_induction searchIcon cp l start way names with
  | case1 => exact failsIn_ok _
  | case2 => exact failsIn_ok _
  | case3 => exact failsIn_error.mpr rfl
  | case4 _ _ _ _ _ _ ih => exact ih
  | case5 _ _ _ _ _ _ _ ih ihrest =>
    refine ih.bind fun found? _ ↦ ?_
    cases found? with
    | some icon => exact failsIn_pure _
    | none => exact ihrest

/-- **The icon of a class is what the search comes to.** -/
theorem iconOf?_eq_ok_iff : cp.iconOf? l name = .ok icon? ↔ cp.SearchesTo l [name] icon? :=
  ⟨searchesTo_of_searchIcon, fun h ↦ h.searchIcon_eq [] (.nil [name])⟩

/-- There is no outcome where the search never ends. -/
theorem iconOf?_eq_error_iff {f : Failure} :
    cp.iconOf? l name = .error f ↔ f = .endlessSearch name ∧ ¬cp.SearchEnds l name := by
  constructor
  · intro h
    refine ⟨searchIcon_fails cp l name [] [name] f h, fun ⟨icon?, hends⟩ ↦ ?_⟩
    rw [iconOf?_eq_ok_iff.mpr hends] at h
    cases h
  · rintro ⟨rfl, hendless⟩
    cases h : cp.iconOf? l name with
    | error f => rw [searchIcon_fails cp l name [] [name] f h]
    | ok icon? => exact absurd ⟨icon?, iconOf?_eq_ok_iff.mp h⟩ hendless

/-- The icon of the first of some names that has one. -/
def firstIcon (l : Locator) (names : List String) : Option Icon :=
  names.findSome? (l.findIcon · "")

/-- **The search keeps to the depth-first order.** -/
theorem DepthFirst.searchesTo (h : cp.DepthFirst names order) :
    cp.SearchesTo l names (firstIcon l order) := by
  induction h with
  | nil => exact .nil
  | @cons name rest own others _ _ ih ihrest =>
    cases hicon : l.findIcon name "" with
    | some icon =>
      rw [firstIcon, List.findSome?_cons, hicon]
      exact .found hicon
    | none =>
      have hfirst : firstIcon l (name :: (own ++ others)) =
          (firstIcon l own).or (firstIcon l others) := by
        rw [firstIcon, List.findSome?_cons, hicon]
        exact List.findSome?_append
      rw [hfirst]
      cases hown : firstIcon l own with
      | some icon => exact .inherited hicon (hown ▸ ih)
      | none => exact .next hicon (hown ▸ ih) ihrest

/-- The icon of a class is the first one in its order. -/
theorem DepthFirst.iconOf?_eq (h : cp.DepthFirst [name] order) :
    cp.iconOf? l name = .ok (firstIcon l order) :=
  iconOf?_eq_ok_iff.mpr h.searchesTo

/-- Without circles the search ends. -/
theorem NeverLoops.searchEnds (h : cp.NeverLoops name) : cp.SearchEnds l name := by
  obtain ⟨order, horder⟩ := neverLoops_iff.mp h
  exact ⟨_, horder.searchesTo⟩

theorem exists_searchesTo_of_forall (h : ∀ n ∈ names, cp.SearchEnds l n) :
    ∃ icon?, cp.SearchesTo l names icon? := by
  induction names with
  | nil => exact ⟨none, .nil⟩
  | cons n names ih =>
    obtain ⟨⟨_, hn⟩, hnames⟩ := List.forall_mem_cons.mp h
    cases hn with
    | found hicon => exact ⟨_, .found hicon⟩
    | inherited hicon hparents => exact ⟨_, .inherited hicon hparents⟩
    | next hicon hparents _ =>
      obtain ⟨icon?, hrest⟩ := ih hnames
      exact ⟨icon?, .next hicon hparents hrest⟩

/-- The search ends for a name if it does for all that the name comes from. -/
theorem searchEnds_of_forall_parents (h : ∀ parent ∈ cp.parents name, cp.SearchEnds l parent) :
    cp.SearchEnds l name := by
  obtain ⟨icon?, hparents⟩ := exists_searchesTo_of_forall h
  cases hicon : l.findIcon name "" with
  | some icon => exact ⟨some icon, .found hicon⟩
  | none =>
    cases icon? with
    | some icon => exact ⟨some icon, .inherited hicon hparents⟩
    | none => exact ⟨none, .next hicon hparents .nil⟩

theorem searchEnds_of_parents_eq_nil (h : cp.parents name = []) : cp.SearchEnds l name :=
  searchEnds_of_forall_parents (h ▸ List.forall_mem_nil _)

theorem searchEnds_of_parents_eq_singleton {parent : String} (h : cp.parents name = [parent])
    (hparent : cp.SearchEnds l parent) : cp.SearchEnds l name :=
  searchEnds_of_forall_parents (h ▸ List.forall_mem_singleton.mpr hparent)

end ClassPath

namespace Resolver

open ClassPath

variable {r : Resolver} {d : Description}

theorem iconFor_of_none (h : d.icon? = none) :
    r.iconFor d = r.classPath.iconOf? r.locator d.componentClass := by
  rw [iconFor, h]

theorem iconFor_of_some {icon : Icon} (h : d.icon? = some icon) :
    r.iconFor d = .ok (some icon) := by
  rw [iconFor, h]

/-- **Which icon a description gets.**  If its class never leads back to itself, nor does any class
that it comes from, then there is one depth-first order of those, and a description without an icon
gets the first one in this order.  It gets none exactly if none of the names has one.  An icon that
is there stays. -/
theorem withIcon_depthFirst (r : Resolver) (d : Description)
    (h : r.classPath.NeverLoops d.componentClass) :
    ∃ order, r.classPath.DepthFirst [d.componentClass] order ∧
      (∀ other, r.classPath.DepthFirst [d.componentClass] other → other = order) ∧
      (d.icon? = none → r.withIcon d = .ok { d with icon? := firstIcon r.locator order }) ∧
      (d.icon? = none → ∃ e, r.withIcon d = .ok e ∧ (e.icon? = none ↔
        ∀ n, ReflTransGen r.classPath.ComesFrom d.componentClass n →
          r.locator.findIcon n "" = none)) ∧
      (d.icon? ≠ none → r.withIcon d = .ok d) := by
  obtain ⟨order, horder⟩ := neverLoops_iff.mp h
  have hset : d.icon? = none →
      r.withIcon d = .ok { d with icon? := firstIcon r.locator order } := by
    intro hnone
    rw [withIcon, iconFor_of_none hnone, horder.iconOf?_eq]
    rfl
  refine ⟨order, horder, fun _ ↦ horder.unique, hset, fun hnone ↦ ⟨_, hset hnone, ?_⟩,
    fun hsome ↦ ?_⟩
  · refine List.findSome?_eq_none_iff.trans (forall_congr' fun n ↦ ?_)
    simp only [horder.mem_iff, List.mem_singleton, exists_eq_left]
  · obtain ⟨icon, hicon⟩ := Option.ne_none_iff_exists'.mp hsome
    rw [withIcon, iconFor_of_some hicon, ← hicon]
    rfl

/-! A link has an interface in common with another interface of its own, and that one extends an
interface that is not on the class path but has an icon.  The icon of the superclass comes later. -/

def linkClass : ClassDecl :=
  { name := "a.Link", superclass? := some "a.Widget", interfaces := ["a.Shown", "a.Target"] }

def linkResolver : Resolver where
  classPath := ClassPath.empty.addAll
    [linkClass, .interface "a.Shown",
      (ClassDecl.interface "a.Target").implementing "a.Shown" |>.implementing "a.Remote",
      { name := "a.Widget" }]
  locator :=
    { find? path := if path ∈ ["a/Remote.png", "a/Widget.png"] then
          some { path, bundle? := some "icons", toolkit? := none, location := .memory [] }
        else none
      hasEntry _ _ := false }

theorem withIcon_depthFirst_link :
    linkResolver.classPath.NeverLoops "a.Link" ∧
      (linkResolver.withIcon (.ofClass (.pure "a.Link") linkClass)).map (·.icon?) =
        .ok (some ⟨"a/Remote.png", some "icons"⟩) := by
  have hlink : linkResolver.classPath.parents "a.Link" = ["a.Shown", "a.Target", "a.Widget"] := by
    decide +kernel
  have htarget : linkResolver.classPath.parents "a.Target" = ["a.Shown", "a.Remote"] := by
    decide +kernel
  have hleaf : ∀ name ∈ ["a.Shown", "a.Remote", "a.Widget"],
      linkResolver.classPath.parents name = [] := by
    decide +kernel
  have hshown := hleaf "a.Shown" (by decide)
  have hremote : linkResolver.classPath.DepthFirst ["a.Remote"] ["a.Remote"] :=
    .cons_of_parents_eq (hleaf "a.Remote" (by decide)) .nil .nil
  have hwidget : linkResolver.classPath.DepthFirst ["a.Widget"] ["a.Widget"] :=
    .cons_of_parents_eq (hleaf "a.Widget" (by decide)) .nil .nil
  have hparents : linkResolver.classPath.DepthFirst ["a.Shown", "a.Target", "a.Widget"]
      ["a.Shown", "a.Target", "a.Shown", "a.Remote", "a.Widget"] :=
    .cons_of_parents_eq hshown .nil
      (.cons_of_parents_eq htarget (.cons_of_parents_eq hshown .nil hremote) hwidget)
  have horder := DepthFirst.cons_of_parents_eq hlink hparents .nil
  have hnever : linkResolver.classPath.NeverLoops "a.Link" := neverLoops_iff.mpr ⟨_, horder⟩
  obtain ⟨order, -, hunique, hset, -⟩ :=
    withIcon_depthFirst linkResolver (.ofClass (.pure "a.Link") linkClass) hnever
  rw [hset rfl, ← hunique _ horder]
  exact ⟨hnever, by decide +kernel⟩

end Resolver

end ComponentCatalog
