import ComponentCatalog.Proofs.Layer.Places
import ComponentCatalog.Xml.Document

/-!
# Unknown elements are transparent

An element is unknown to rules if they match neither its own path nor the path of an element in it.
**Without it a document reads the same** (`standardRules_transparent`), wherever it stands: inside a
part under construction, between the texts of an element whose text is read, or beside elements that
fail.

Two facts carry this.  No handler is called for an unknown element (`Rules.calls_eq_nil`).  And of
the elements around it, handlers look at the name, the attributes and the text alone
(`Rule.ReadsHead`), which are the same without it: the text of an element is put together from the
runs directly inside it, whatever stands between them (`Xml.Element.ofPieces`).
-/

set_option autoImplicit false

namespace ComponentCatalog

open Xml

/-! ## Pieces of an element -/

namespace Xml

/-- What stands directly inside an element: a run of text, or an element. -/
inductive Piece where
  | text (run : List Char)
  | child (e : Element)

namespace Piece

/-- The characters of a run of text. -/
def chars : Piece → List Char
  | text run => run
  | child _ => []

/-- The element that a piece is. -/
def child? : Piece → Option Element
  | text _ => none
  | child e => some e

end Piece

/-- The element with pieces in order. -/
def Element.ofPieces (name : String) (attributes : NameMap String) (pieces : List Piece) :
    Element where
  name := name
  attributes := attributes
  text := String.ofList (pieces.flatMap (·.chars))
  children := pieces.filterMap (·.child?)

/-- An element among other pieces adds nothing to the text around it. -/
theorem flatMap_chars_child (before after : List Piece) (e : Element) :
    (before ++ .child e :: after).flatMap (·.chars) = (before ++ after).flatMap (·.chars) := by
  rw [List.flatMap_append, List.flatMap_cons, List.flatMap_append, Piece.chars, List.nil_append]

/-- Adds a piece to an element that is still open. -/
def OpenElement.add (e : OpenElement) : Piece → OpenElement
  | .text run => e.addText run
  | .child c => e.addChild c

theorem OpenElement.close_foldl_add (pieces : List Piece) (e : OpenElement) :
    (pieces.foldl OpenElement.add e).close =
      { name := e.name.name
        attributes := e.attributes
        text := String.ofList (e.texts.reverse.flatten ++ pieces.flatMap (·.chars))
        children := e.children.reverse ++ pieces.filterMap (·.child?) } := by
  induction pieces generalizing e with
  | nil =>
    rw [List.foldl_nil, close, List.flatMap_nil, List.filterMap_nil, List.append_nil,
      List.append_nil]
  | cons piece pieces ih =>
    rw [List.foldl_cons, ih]
    cases piece with
    | text run => simp [OpenElement.add, addText, Piece.chars, Piece.child?]
    | child c => simp [OpenElement.add, addChild, Piece.chars, Piece.child?]

/-- This is how elements come about when a document is read. -/
theorem Element.close_foldl_add (e : OpenElement) (htexts : e.texts = [])
    (hchildren : e.children = []) (pieces : List Piece) :
    (pieces.foldl OpenElement.add e).close = ofPieces e.name.name e.attributes pieces := by
  rw [OpenElement.close_foldl_add, htexts, hchildren]
  rfl

/-- Every element has pieces: its text, say, and then its children. -/
theorem Element.ofPieces_self (e : Element) :
    ofPieces e.name e.attributes (.text e.text.toList :: e.children.map .child) = e := by
  have hchars : (e.children.map Piece.child).flatMap (·.chars) = [] := by
    rw [List.flatMap_map, List.flatMap_eq_nil_iff]
    exact fun _ _ ↦ rfl
  have hchildren : (e.children.map Piece.child).filterMap (·.child?) = e.children := by
    rw [List.filterMap_map]
    exact List.filterMap_some
  have htext : (Piece.text e.text.toList :: e.children.map .child).flatMap (·.chars) =
      e.text.toList := by
    rw [List.flatMap_cons, hchars, List.append_nil, Piece.chars]
  rw [ofPieces, htext, String.ofList_toList, List.filterMap_cons_none rfl, hchildren]
  cases e
  rfl

end Xml

/-! ## Unknown elements -/

namespace Rules

mutual

/-- The paths of an element and of all elements in it. -/
def paths (path : String) : Element → List String
  | ⟨_, _, _, children⟩ => path :: childPaths path children

/-- The paths of the children of an element, and of all elements in them. -/
def childPaths (path : String) : List Element → List String
  | [] => []
  | child :: rest => paths (childPath path child.name) child ++ childPaths path rest

end

/-- The rules match neither the path of an element nor that of an element in it. -/
def Unknown (rules : List Rule) (path : String) (e : Element) : Prop :=
  ∀ p ∈ paths path e, ∀ rule ∈ rules, rule.matches p = false

instance (rules : List Rule) (path : String) (e : Element) : Decidable (Unknown rules path e) :=
  inferInstanceAs (Decidable (∀ p ∈ paths path e, ∀ rule ∈ rules, rule.matches p = false))

variable {rules : List Rule} {path : String} {e e' : Element}

mutual

/-- No handler is called for an unknown element. -/
theorem calls_eq_nil : ∀ {path : String} {e : Element}, Unknown rules path e →
    calls rules path e = []
  | path, ⟨name, attributes, text, children⟩, h => by
    have hown : rules.filter (·.matches path) = [] := by
      refine List.filter_eq_nil_iff.mpr fun rule hrule ↦ ?_
      have hnot := h path (by rw [paths]; exact List.mem_cons_self) rule hrule
      rw [hnot]
      exact Bool.false_ne_true
    have hinside : childCalls rules path children = [] :=
      childCalls_eq_nil fun p hp ↦ h p (by rw [paths]; exact List.mem_cons_of_mem _ hp)
    rw [calls_eq_foldr, hown, hinside]
    rfl

theorem childCalls_eq_nil : ∀ {path : String} {children : List Element},
    (∀ p ∈ childPaths path children, ∀ rule ∈ rules, rule.matches p = false) →
      childCalls rules path children = []
  | path, [], _ => by rw [childCalls]
  | path, child :: rest, h => by
    rw [childPaths] at h
    have hchild : calls rules (childPath path child.name) child = [] :=
      calls_eq_nil fun p hp ↦ h p (List.mem_append_left _ hp)
    have hrest : childCalls rules path rest = [] :=
      childCalls_eq_nil fun p hp ↦ h p (List.mem_append_right _ hp)
    rw [childCalls, hchild, hrest]
    rfl

end

/-! ## Without an unknown element -/

/-- The second element, at a path, is the first one without an unknown element in it.  That is one
of its pieces, or else it is missing from one of them. -/
inductive Prunes (rules : List Rule) : String → Element → Element → Prop
  | here {path name : String} {attributes : NameMap String} {gone : Element}
      (before after : List Piece) (h : Unknown rules (childPath path gone.name) gone) :
      Prunes rules path (.ofPieces name attributes (before ++ .child gone :: after))
        (.ofPieces name attributes (before ++ after))
  | inside {path name : String} {attributes : NameMap String} {child pruned : Element}
      (before after : List Piece) (h : Prunes rules (childPath path child.name) child pruned) :
      Prunes rules path (.ofPieces name attributes (before ++ .child child :: after))
        (.ofPieces name attributes (before ++ .child pruned :: after))

/-- A child can be left out wherever it stands among the children. -/
theorem Prunes.of_children {name text : String} {attributes : NameMap String} {gone : Element}
    (before after : List Element) (h : Unknown rules (childPath path gone.name) gone) :
    Prunes rules path ⟨name, attributes, text, before ++ gone :: after⟩
      ⟨name, attributes, text, before ++ after⟩ := by
  have hprunes : Prunes rules path
      (.ofPieces name attributes
        (.text text.toList :: before.map .child ++ .child gone :: after.map .child))
      (.ofPieces name attributes (.text text.toList :: before.map .child ++ after.map .child)) :=
    .here _ _ h
  have hall := Element.ofPieces_self ⟨name, attributes, text, before ++ gone :: after⟩
  have hrest := Element.ofPieces_self ⟨name, attributes, text, before ++ after⟩
  rw [List.map_append] at hall hrest
  rw [← hall, ← hrest]
  exact hprunes

end Rules

/-! ## Handlers and the text around -/

/-- The rule whose handlers see no children. -/
def Rule.onHeads (rule : Rule) : Rule where
  pattern := rule.pattern
  onOpen e := rule.onOpen { e with children := [] }
  onClose e := rule.onClose { e with children := [] }

/-- The handlers of a rule do not look at the children of an element. -/
def Rule.ReadsHead (rule : Rule) : Prop := rule.onHeads = rule

/-- Two elements agree but for their children. -/
structure SameHead (e e' : Element) : Prop where
  name : e'.name = e.name
  attributes : e'.attributes = e.attributes
  text : e'.text = e.text

theorem sameHead_ofPieces {pieces pieces' : List Piece} (name : String)
    (attributes : NameMap String)
    (h : pieces'.flatMap (·.chars) = pieces.flatMap (·.chars)) :
    SameHead (.ofPieces name attributes pieces) (.ofPieces name attributes pieces') :=
  ⟨rfl, rfl, congrArg String.ofList h⟩

theorem SameHead.without_children {e e' : Element} (h : SameHead e e') :
    { e' with children := [] } = { e with children := [] } := by
  obtain ⟨hname, hattributes, htext⟩ := h
  rw [hname, hattributes, htext]

namespace Rules

variable {rules : List Rule} {path : String} {e e' : Element} {inner inner' : List Call}

theorem run_enclose (e : Element) (rule : Rule) (inner : List Call) (r : Reading) :
    run (enclose e rule inner) r = rule.onOpen e r >>= fun r ↦ run inner r >>= rule.onClose e := by
  rw [enclose, List.cons_append, run_cons]
  refine congrArg (rule.onOpen e r >>= ·) (funext fun r ↦ ?_)
  rw [run_append]
  refine congrArg (run inner r >>= ·) (funext fun r ↦ ?_)
  rw [run_cons]
  exact bind_pure _

/-- What is called around calls that come to the same comes to the same, for elements that agree but
for their children. -/
theorem run_enclose_congr {rule : Rule} (hrule : rule.ReadsHead) (hhead : SameHead e e')
    (hinner : run inner' = run inner) :
    run (enclose e' rule inner') = run (enclose e rule inner) := by
  have hopen : rule.onOpen e' = rule.onOpen e := by
    rw [← hrule]
    exact congrArg rule.onOpen hhead.without_children
  have hclose : rule.onClose e' = rule.onClose e := by
    rw [← hrule]
    exact congrArg rule.onClose hhead.without_children
  funext r
  rw [run_enclose, run_enclose, hopen, hclose, hinner]

theorem run_calls_congr (hrules : ∀ rule ∈ rules, rule.ReadsHead) (hhead : SameHead e e')
    (hinside : run (childCalls rules path e'.children) = run (childCalls rules path e.children)) :
    run (calls rules path e') = run (calls rules path e) := by
  rw [calls_eq_foldr, calls_eq_foldr]
  have hmatching : ∀ rule ∈ rules.filter (·.matches path), rule.ReadsHead :=
    fun rule hrule ↦ hrules rule (List.mem_filter.mp hrule).1
  generalize rules.filter (·.matches path) = matching at hmatching
  induction matching with
  | nil => exact hinside
  | cons rule matching ih =>
    obtain ⟨hrule, hmatching⟩ := List.forall_mem_cons.mp hmatching
    exact run_enclose_congr hrule hhead (ih hmatching)

/-- Reading the children of an element with pieces, one after the other. -/
theorem run_childCalls_pieces (before after : List Piece) (child : Element) (r : Reading) :
    run (childCalls rules path ((before ++ .child child :: after).filterMap (·.child?))) r =
      run (childCalls rules path (before.filterMap (·.child?))) r >>= fun r ↦
        run (calls rules (childPath path child.name) child) r >>=
          run (childCalls rules path (after.filterMap (·.child?))) := by
  rw [List.filterMap_append, childCalls_append, run_append, List.filterMap_cons]
  dsimp only [Piece.child?]
  refine congrArg (run _ r >>= ·) (funext fun r ↦ ?_)
  rw [childCalls, run_append]

/-- **Without an unknown element** there is the same head, and reading comes to the same. -/
theorem Prunes.run_calls (hrules : ∀ rule ∈ rules, rule.ReadsHead) (h : Prunes rules path e e') :
    SameHead e e' ∧ run (calls rules path e') = run (calls rules path e) := by
  induction h with
  | @here path name attributes gone before after hgone =>
    have hhead := sameHead_ofPieces name attributes (flatMap_chars_child before after gone).symm
    refine ⟨hhead, run_calls_congr hrules hhead (funext fun r ↦ ?_)⟩
    dsimp only [Element.ofPieces]
    rw [run_childCalls_pieces, calls_eq_nil hgone, List.filterMap_append, childCalls_append,
      run_append]
    rfl
  | @inside path name attributes child pruned before after hchild ih =>
    obtain ⟨hsame, hrun⟩ := ih
    have hchars := flatMap_chars_child before after pruned
    have hhead := sameHead_ofPieces name attributes
      (hchars.trans (flatMap_chars_child before after child).symm)
    refine ⟨hhead, run_calls_congr hrules hhead (funext fun r ↦ ?_)⟩
    dsimp only [Element.ofPieces]
    rw [run_childCalls_pieces, run_childCalls_pieces, hsame.name, hrun]

end Rules

/-! ## The standard rules -/

/-- No handler of the standard rules looks at children: what it makes of an element computes to the
same without them. -/
theorem standardRules_readHeads : ∀ rule ∈ standardRules, rule.ReadsHead := by
  have hall : standardRules.map Rule.onHeads = standardRules := rfl
  exact List.map_inj_left.mp (hall.trans (List.map_id _).symm)

open Rules in
/-- **Unknown elements are transparent.**  The root of a document is read to the same layer, or
fails in the same way, without an element that is unknown to the standard rules, at any depth. -/
theorem standardRules_transparent {root pruned : Element}
    (h : Prunes standardRules root.name root pruned) :
    apply standardRules pruned = apply standardRules root := by
  obtain ⟨hhead, hrun⟩ := h.run_calls standardRules_readHeads
  rw [apply, apply, hhead.name]
  split
  · rename_i hname
    rw [hname] at hrun
    rw [hrun]
  · rfl

/-! A note inside the text of an order. -/

def note : Element := { name := "note", attributes := .ofList [("lang", "en")] }

def orderWith (between : List Piece) : Element :=
  .ofPieces "component" .empty
    [.child (.ofPieces "order" .empty (.text ['1'] :: between ++ [.text ['2']]))]

open Rules StandardRules in
theorem standardRules_transparent_note :
    Prunes standardRules (orderWith [.child note]).name (orderWith [.child note]) (orderWith []) ∧
      apply standardRules (orderWith []) = apply standardRules (orderWith [.child note]) := by
  have hother : ¬IsEditorParameter (pathOf ["note", "order"]) := by
    intro h
    obtain ⟨name, outer, hnames, -⟩ := exists_of_isEditorParameter (by decide) h
    exact absurd (List.cons.inj (List.cons.inj hnames).2).1 (by decide)
  have hpattern : ∀ rule ∈ standardRules, rule.pattern ≠ pathOf ["note", "order"] := by
    decide +kernel
  have hnone : ∀ rule ∈ standardRules, rule.matches (pathOf ["note", "order"]) = false := by
    intro rule hrule
    rw [← Bool.not_eq_true, matches_iff_pattern_eq hrule hother]
    exact hpattern rule hrule
  have hunknown : Unknown standardRules "component/order/note" note := by
    intro p hp
    obtain rfl := List.mem_singleton.mp hp
    exact hnone
  have hprunes : Prunes standardRules (orderWith [.child note]).name (orderWith [.child note])
      (orderWith []) :=
    .inside [] [] (.here [.text ['1']] [.text ['2']] hunknown)
  exact ⟨hprunes, standardRules_transparent hprunes⟩

end ComponentCatalog
