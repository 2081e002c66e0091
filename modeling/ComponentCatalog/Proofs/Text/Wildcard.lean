import ComponentCatalog.Text.Wildcard
import Mathlib.Data.List.Induction

/-!
# What wildcard patterns match

`Wildcard.matches_iff_woven` says what matching comes down to, whatever was matched before: a
pattern takes a text exactly if the text is made of the pattern's pieces between the stars, in their
order, with a gap on one line between each two of them.

It is put together from three facts.

* **`Wildcard.after` is a derivative** (`Takes.cons_iff`): a compiled pattern takes a text exactly
  if something that is left of the pattern after the first character takes the rest.  So reading
  the text once decides whether a pattern takes it (`acceptsAny_iff`).
* A compiled pattern takes the texts that are woven from the pieces it was compiled from
  (`takes_intercalate_iff`).
* **The table holds nothing but what `Wildcard.compile` gives**, for the patterns with a star that
  have been matched (`Table.Holds`).  Each match keeps that, so no match changes what another one
  says.
-/

set_option autoImplicit false

namespace ComponentCatalog.Wildcard

/-! ## What a compiled pattern takes -/

/-- A compiled pattern takes a text, symbol by symbol. -/
inductive Takes : Compiled → List Char → Prop where
  | nil : Takes [] []
  | character (c : Char) {rest : Compiled} {text : List Char} (h : Takes rest text) :
      Takes (.character c :: rest) (c :: text)
  | run {gap : List Char} (hgap : '\n' ∉ gap) {rest : Compiled} {text : List Char}
      (h : Takes rest text) : Takes (.run :: rest) (gap ++ text)

namespace Takes

variable {rest compiled : Compiled} {c d : Char} {text : List Char}

theorem character_cons_iff :
    Takes (.character d :: rest) (c :: text) ↔ c = d ∧ Takes rest text := by
  constructor
  · rintro (_ | ⟨_, h⟩)
    exact ⟨rfl, h⟩
  · rintro ⟨rfl, h⟩
    exact .character c h

theorem run_iff :
    Takes (.run :: rest) text ↔
      ∃ gap text', '\n' ∉ gap ∧ text = gap ++ text' ∧ Takes rest text' := by
  constructor
  · intro h
    generalize hcompiled : Symbol.run :: rest = compiled at h
    cases h with
    | nil => cases hcompiled
    | character => cases hcompiled
    | run hgap h =>
      obtain rfl := (List.cons.inj hcompiled).2
      exact ⟨_, _, hgap, rfl, h⟩
  · rintro ⟨gap, text', hgap, rfl, h⟩
    exact .run hgap h

/-- A run takes the next character and goes on, or is done. -/
theorem run_cons_iff :
    Takes (.run :: rest) (c :: text) ↔
      c ≠ '\n' ∧ Takes (.run :: rest) text ∨ Takes rest (c :: text) := by
  rw [run_iff, run_iff]
  constructor
  · rintro ⟨gap, text', hgap, htext, h⟩
    cases gap with
    | nil =>
      obtain rfl : c :: text = text' := htext
      exact .inr h
    | cons d gap =>
      obtain ⟨rfl, rfl⟩ := List.cons.inj htext
      exact .inl ⟨Ne.symm (List.ne_of_not_mem_cons hgap), gap, text',
        List.not_mem_of_not_mem_cons hgap, rfl, h⟩
  · rintro (⟨hc, gap, text', hgap, rfl, h⟩ | h)
    · exact ⟨c :: gap, text', List.not_mem_cons_of_ne_of_not_mem hc.symm hgap, rfl, h⟩
    · exact ⟨[], c :: text, List.not_mem_nil, rfl, h⟩

theorem nil_iff (compiled : Compiled) : Takes compiled [] ↔ compiled.all (· == .run) := by
  induction compiled with
  | nil => exact iff_of_true .nil rfl
  | cons symbol rest ih =>
    cases symbol with
    | character c =>
      refine iff_of_false (fun h ↦ ?_) (by simp)
      cases h
    | run =>
      rw [run_iff, List.all_cons, beq_self_eq_true, Bool.true_and, ← ih]
      constructor
      · rintro ⟨gap, text', -, htext, h⟩
        obtain ⟨-, rfl⟩ := List.append_eq_nil_iff.mp htext.symm
        exact h
      · exact fun h ↦ ⟨[], [], List.not_mem_nil, rfl, h⟩

/-- **What is left of a pattern takes what is left of the text.** -/
theorem cons_iff (c : Char) (text : List Char) (compiled : Compiled) :
    Takes compiled (c :: text) ↔ ∃ rest ∈ after c compiled, Takes rest text := by
  induction compiled with
  | nil => exact iff_of_false (fun h ↦ nomatch h) (by simp [after])
  | cons symbol rest ih =>
    cases symbol with
    | character d =>
      rw [character_cons_iff, after]
      by_cases hc : c = d <;> simp [hc]
    | run =>
      rw [run_cons_iff, ih, after]
      by_cases hc : c = '\n' <;> simp [hc]

end Takes

/-- Following all that can be left of the patterns decides whether one of them takes the text. -/
theorem acceptsAny_iff (patterns : List Compiled) (text : List Char) :
    acceptsAny patterns text ↔ ∃ compiled ∈ patterns, Takes compiled text := by
  induction text generalizing patterns with
  | nil =>
    rw [acceptsAny, List.any_eq_true]
    simp only [Takes.nil_iff]
  | cons c text ih =>
    rw [acceptsAny, ih]
    simp only [List.mem_eraseDups, List.mem_flatMap, Takes.cons_iff c text]
    constructor
    · rintro ⟨rest, ⟨compiled, hcompiled, hrest⟩, h⟩
      exact ⟨compiled, hcompiled, rest, hrest, h⟩
    · rintro ⟨compiled, hcompiled, rest, hrest, h⟩
      exact ⟨rest, ⟨compiled, hcompiled, hrest⟩, h⟩

/-! ## Pieces and gaps -/

/-- A first piece and others, each of them after a gap. -/
def weave (first : String) (others : List (String × String)) : String :=
  first ++ String.join (others.map fun (gap, piece) ↦ gap ++ piece)

theorem takes_characters_append_iff (piece : List Char) (rest : Compiled) (text : List Char) :
    Takes (piece.map .character ++ rest) text ↔
      ∃ text', text = piece ++ text' ∧ Takes rest text' := by
  induction piece generalizing text with
  | nil => simp
  | cons c piece ih =>
    cases text with
    | nil => exact iff_of_false (fun h ↦ nomatch h) (by simp)
    | cons d text =>
      rw [List.map_cons, List.cons_append, Takes.character_cons_iff, ih]
      simp only [List.cons_append, List.cons.injEq, and_assoc, exists_and_left]

/-- A compiled pattern takes what is woven from its pieces. -/
theorem takes_intercalate_iff (first : List Char) (pieces : List (List Char)) (text : List Char) :
    Takes ([.run].intercalate ((first :: pieces).map (·.map .character))) text ↔
      ∃ others : List (List Char × List Char), pieces = others.map (·.2) ∧
        (∀ o ∈ others, '\n' ∉ o.1) ∧ text = first ++ others.flatMap fun o ↦ o.1 ++ o.2 := by
  induction pieces generalizing first text with
  | nil =>
    have hlast := takes_characters_append_iff first [] text
    rw [List.append_nil] at hlast
    rw [List.map_singleton, List.intercalate_singleton, hlast]
    constructor
    · rintro ⟨text', rfl, h⟩
      cases h
      exact ⟨[], rfl, by simp, rfl⟩
    · rintro ⟨others, hothers, -, rfl⟩
      obtain rfl := List.map_eq_nil_iff.mp hothers.symm
      exact ⟨[], rfl, .nil⟩
  | cons piece pieces ih =>
    have hcons : [Symbol.run].intercalate ((first :: piece :: pieces).map (·.map .character)) =
        first.map .character ++
          .run :: [.run].intercalate ((piece :: pieces).map (·.map .character)) := by
      rw [List.map_cons, List.map_cons, List.intercalate_cons_cons, List.append_assoc]
      rfl
    rw [hcons, takes_characters_append_iff]
    simp only [Takes.run_iff, ih]
    constructor
    · rintro ⟨-, rfl, gap, -, hgap, rfl, others, rfl, hothers, rfl⟩
      refine ⟨(gap, piece) :: others, rfl, List.forall_mem_cons.mpr ⟨hgap, hothers⟩, ?_⟩
      rw [List.flatMap_cons, List.append_assoc]
    · rintro ⟨others, hpieces, hothers, rfl⟩
      obtain ⟨⟨gap, _⟩, others, rfl, hpieces⟩ := List.map_eq_cons_iff.mp hpieces.symm
      obtain ⟨rfl, rfl⟩ := hpieces
      obtain ⟨hgap, hothers⟩ := List.forall_mem_cons.mp hothers
      refine ⟨_, rfl, gap, _, hgap, ?_, others, rfl, hothers, rfl⟩
      rw [List.flatMap_cons, List.append_assoc]

theorem toList_weave (first : String) (others : List (String × String)) :
    (weave first others).toList =
      first.toList ++ others.flatMap fun o ↦ o.1.toList ++ o.2.toList := by
  rw [weave, String.toList_append, String.toList_join, List.flatMap_map]
  simp only [String.toList_append]

theorem accepts_iff (pattern text : String) :
    accepts pattern text ↔ ∃ first others, Text.split '*' pattern = first :: others.map (·.2) ∧
      (∀ o ∈ others, '\n' ∉ o.1.toList) ∧ text = weave first others := by
  obtain ⟨first, pieces, hpieces⟩ :=
    List.exists_cons_of_ne_nil (List.splitOn_ne_nil '*' pattern.toList)
  have htakes : accepts pattern text ↔
      Takes ([.run].intercalate ((first :: pieces).map (·.map .character))) text.toList := by
    rw [accepts, Compiled.accepts, acceptsAny_iff, compile, hpieces]
    simp only [List.mem_singleton, exists_eq_left]
  rw [htakes, takes_intercalate_iff, Text.split, hpieces]
  constructor
  · rintro ⟨others, rfl, hgaps, htext⟩
    refine ⟨.ofList first, others.map fun o ↦ (.ofList o.1, .ofList o.2), ?_, ?_, ?_⟩
    · simp
    · exact List.forall_mem_map.mpr fun o ho ↦ by simpa using hgaps o ho
    · refine String.ext ?_
      simp [htext, toList_weave, List.flatMap_map]
  · rintro ⟨first', others, hsplit, hgaps, rfl⟩
    obtain ⟨rfl, hothers⟩ := List.cons.inj hsplit
    refine ⟨others.map fun o ↦ (o.1.toList, o.2.toList), ?_, ?_, ?_⟩
    · have htoList := congrArg (List.map String.toList) hothers
      simpa [Function.comp_def] using htoList
    · exact List.forall_mem_map.mpr hgaps
    · simp [toList_weave, List.flatMap_map]

/-- The direct comparison says of a pattern without a star what matching says. -/
theorem isMatch_eq_accepts (pattern text : String) :
    isMatch pattern text = accepts pattern text := by
  rw [isMatch]
  split
  · rfl
  · rename_i hstar
    have hnone : '*' ∉ pattern.toList := by simpa using hstar
    have hsplit : Text.split '*' pattern = [pattern] := Text.split_eq_singleton hnone
    rw [Bool.eq_iff_iff, accepts_iff, hsplit, beq_iff_eq]
    constructor
    · rintro rfl
      exact ⟨pattern, [], rfl, by simp, String.ext (by simp [toList_weave])⟩
    · rintro ⟨first, others, hfirst, -, rfl⟩
      obtain ⟨rfl, hothers⟩ := List.cons.inj hfirst
      obtain rfl := List.map_eq_nil_iff.mp hothers.symm
      exact String.ext (by simp [toList_weave])

/-! ## The table -/

namespace Table

/-- The table holds what `compile` gives for those of some patterns that have a star. -/
def Holds (table : Table) (patterns : List String) : Prop :=
  ∀ pattern, table.get? pattern =
    if '*' ∈ pattern.toList ∧ pattern ∈ patterns then some (compile pattern) else none

/-- The table after texts have been matched against patterns. -/
def matchAll (calls : List (String × String)) : Table :=
  calls.foldl (fun table (pattern, text) ↦ (table.isMatch pattern text).2) .empty

variable {table : Table} {patterns : List String}

theorem Holds.isMatch_fst (h : table.Holds patterns) (pattern text : String) :
    (table.isMatch pattern text).1 = Wildcard.isMatch pattern text := by
  have hget := h pattern
  rw [Table.isMatch, Wildcard.isMatch]
  split
  · split
    · rename_i compiled hfound
      have hcompiled : compiled = compile pattern := by
        rw [hfound] at hget
        split at hget
        · exact Option.some.inj hget
        · cases hget
      rw [hcompiled]
      rfl
    · rfl
  · rfl

/-- A match leaves the table as it is, or puts in what `compile` gives for its pattern. -/
theorem get?_isMatch_snd (table : Table) (pattern text other : String) :
    (table.isMatch pattern text).2.get? other =
      if other = pattern ∧ '*' ∈ pattern.toList then
        (table.get? pattern).or (some (compile pattern))
      else table.get? other := by
  rw [Table.isMatch]
  by_cases hstar : '*' ∈ pattern.toList
  · rw [if_pos (List.contains_iff_mem.mpr hstar)]
    by_cases hother : other = pattern
    · subst hother
      rw [if_pos ⟨rfl, hstar⟩]
      cases hfound : table.get? other with
      | some compiled => exact hfound
      | none => exact NameMap.get?_insert_self ..
    · rw [if_neg fun h ↦ hother h.1]
      cases table.get? pattern with
      | some compiled => rfl
      | none => exact (NameMap.get?_insert ..).trans (if_neg hother)
  · rw [if_neg (hstar <| List.contains_iff_mem.mp ·), if_neg fun h ↦ hstar h.2]

theorem Holds.isMatch_snd (h : table.Holds patterns) (pattern text : String) :
    (table.isMatch pattern text).2.Holds (patterns ++ [pattern]) := by
  intro other
  rw [get?_isMatch_snd]
  split
  · rename_i hother
    obtain ⟨rfl, hstar⟩ := hother
    rw [if_pos ⟨hstar, by simp⟩, h other]
    split <;> rfl
  · rename_i hother
    have hmem : '*' ∈ other.toList ∧ other ∈ patterns ++ [pattern] ↔
        '*' ∈ other.toList ∧ other ∈ patterns := by
      simp only [List.mem_append, List.mem_singleton]
      constructor
      · rintro ⟨hstar, hpatterns | rfl⟩
        · exact ⟨hstar, hpatterns⟩
        · exact absurd ⟨rfl, hstar⟩ hother
      · exact fun ⟨hstar, hpatterns⟩ ↦ ⟨hstar, .inl hpatterns⟩
    rw [h other, if_congr hmem rfl rfl]

theorem holds_matchAll (calls : List (String × String)) :
    (matchAll calls).Holds (calls.map (·.1)) := by
  induction calls using List.reverseRecOn with
  | nil => exact fun _ ↦ by simp [matchAll]
  | append_singleton calls call ih =>
    rw [matchAll, List.foldl_append, List.map_append]
    exact ih.isMatch_snd call.1 call.2

end Table

/-- **What wildcard patterns match.**  The table of compiled patterns has no say in it, whatever it
was used for before. -/
theorem matches_iff_woven (calls : List (String × String)) (pattern text : String) :
    let table := Table.matchAll calls
    (table.isMatch pattern text).1 = accepts pattern text ∧
      isMatch pattern text = accepts pattern text ∧
      (accepts pattern text ↔ ∃ first others,
        Text.split '*' pattern = first :: others.map (·.2) ∧
        (∀ o ∈ others, '\n' ∉ o.1.toList) ∧ text = weave first others) ∧
      "*".intercalate (Text.split '*' pattern) = pattern ∧
      (∀ piece ∈ Text.split '*' pattern, '*' ∉ piece.toList) ∧
      ∀ other, table.get? other =
        if '*' ∈ other.toList ∧ other ∈ calls.map (·.1) then some (compile other) else none := by
  intro table
  have hholds : table.Holds (calls.map (·.1)) := Table.holds_matchAll calls
  have hisMatch : isMatch pattern text = accepts pattern text := isMatch_eq_accepts pattern text
  refine ⟨(hholds.isMatch_fst pattern text).trans hisMatch, hisMatch, accepts_iff pattern text,
    Text.intercalate_split '*' pattern, fun _ ↦ Text.separator_not_mem_toList, hholds⟩

end ComponentCatalog.Wildcard
