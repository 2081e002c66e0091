import ComponentCatalog.Yaml.Draft
import ComponentCatalog.Yaml.Token

/-!
# YAML documents

`Yaml.read` reads the one document that a text holds.  The tokens of the text tell the nodes apart
from one another, so nodes are read off the list of tokens from left to right.

Nodes are read as drafts.  At the end of the document its aliases are replaced by the nodes that
they stand for.

Reading takes as many steps at most as there are tokens, because every node and every entry of a
collection takes a token.
-/

set_option autoImplicit false

namespace ComponentCatalog.Yaml

/-- The tokens that are left, and what they can refer to. -/
structure Outline where
  tokens : List Token
  anchors : Anchors := {}
  /-- The short forms for the starts of tags. -/
  handles : List (String × String) := []

namespace Outline

/-- The outline without its first token. -/
def drop (o : Outline) : Outline := { o with tokens := o.tokens.drop 1 }

/-- Reads a node that may have an anchor. -/
def anchored (o : Outline) (anchor? : Option String)
    (read : Outline → Option (Draft × Outline)) : Option (Draft × Outline) :=
  match anchor? with
  | none => read o
  | some name => do
    let (draft, rest) ← read { o with anchors := o.anchors.give name }
    pure (draft, { rest with anchors := rest.anchors.fill o.anchors.given.length draft })

/-- The full tag for a handle and what follows it. -/
def fullTag? (o : Outline) (handle suffix : String) : Option String :=
  if handle.isEmpty then some suffix else (o.handles.lookup handle).map (· ++ suffix)

end Outline

/-- The properties of a node. -/
structure Properties where
  anchor? : Option String := none
  tag? : Option String := none

/-- Takes the properties in front of a node: an anchor and a tag, in either order. -/
def takeProperties (o : Outline) : Option (Properties × Outline) :=
  match o.tokens with
  | .anchor name :: .tag handle suffix :: _ => do
    pure (⟨some name, some (← o.fullTag? handle suffix)⟩, o.drop.drop)
  | .tag handle suffix :: .anchor name :: _ => do
    pure (⟨some name, some (← o.fullTag? handle suffix)⟩, o.drop.drop)
  | .anchor name :: _ => some (⟨some name, none⟩, o.drop)
  | .tag handle suffix :: _ => do pure (⟨none, some (← o.fullTag? handle suffix)⟩, o.drop)
  | _ => some ({}, o)

/-- Whether the node of an item of a block is left out before a token. -/
def endsItemNode (indented : Bool) : List Token → Bool
  | .item :: _ => true
  | .key :: _ => !indented
  | .value :: _ => !indented
  | .blockEnd :: _ => true
  | _ => false

/-- Whether a key of a block, or its value, is left out before a token. -/
def endsEntryNode : List Token → Bool
  | .key :: _ => true
  | .value :: _ => true
  | .blockEnd :: _ => true
  | _ => false

/-- Whether a key in a sequence on one line is left out before a token. -/
def endsItemKey : List Token → Bool
  | .value :: _ => true
  | .separator :: _ => true
  | .flowSequenceEnd :: _ => true
  | _ => false

/-- Whether a node of a collection on one line is left out before a token. -/
def endsFlowNode : List Token → Bool
  | .value :: _ => true
  | .separator :: _ => true
  | .flowSequenceEnd :: _ => true
  | .flowMappingEnd :: _ => true
  | _ => false

mutual

/-- Reads a node.  Blocks are possible where `block` says so, and items at the column of their key
where `indentless` does. -/
def readNode : Nat → Bool → Bool → Outline → Option (Draft × Outline)
  | 0, _, _, _ => none
  | fuel + 1, block, indentless, o =>
    match o.tokens with
    | .alias name :: _ => (o.anchors.alias? name).map (·, o.drop)
    | _ => do
      let (properties, o) ← takeProperties o
      o.anchored properties.anchor? fun o ↦
        match o.tokens with
        | .scalar text style :: _ =>
          some (.scalar text style (properties.tag?.filter (· != "!")), o.drop)
        | .flowSequence :: _ =>
          (readFlowItems fuel true o.drop).map fun (l, o) ↦ (.sequence l, o)
        | .flowMapping :: _ =>
          (readFlowEntries fuel true o.drop).map fun (l, o) ↦ (.mapping l, o)
        | .blockSequence :: _ =>
          if block then (readItems fuel true o.drop).map fun (l, o) ↦ (.sequence l, o)
          else none
        | .blockMapping :: _ =>
          if block then (readEntries fuel o.drop).map fun (l, o) ↦ (.mapping l, o)
          else none
        | tokens =>
          let startsItems := match tokens with
            | .item :: _ => indentless
            | _ => false
          if startsItems then (readItems fuel false o).map fun (l, o) ↦ (.sequence l, o)
          else if properties.anchor?.isSome || properties.tag?.isSome then
            some (.scalar "" .plain properties.tag?, o)
          else none

/-- Reads the items of a block.  A block that is indented has an end of its own. -/
def readItems : Nat → Bool → Outline → Option (List Draft × Outline)
  | 0, _, _ => none
  | fuel + 1, indented, o =>
    match o.tokens with
    | .item :: rest => do
      let (item, o) ← if endsItemNode indented rest then some (Draft.empty, o.drop)
        else readNode fuel true false o.drop
      let (items, o) ← readItems fuel indented o
      pure (item :: items, o)
    | .blockEnd :: _ => some ([], if indented then o.drop else o)
    | _ => if indented then none else some ([], o)

/-- Reads the keys of a block with their values. -/
def readEntries : Nat → Outline → Option (List (Draft × Draft) × Outline)
  | 0, _ => none
  | fuel + 1, o => do
    match o.tokens with
    | .blockEnd :: _ => pure ([], o.drop)
    | tokens =>
      let (key, o) ← match tokens with
        | .key :: rest =>
          if endsEntryNode rest then some (Draft.empty, o.drop)
          else readNode fuel true true o.drop
        | _ => none
      let (value, o) ← match o.tokens with
        | .value :: rest =>
          if endsEntryNode rest then some (Draft.empty, o.drop)
          else readNode fuel true true o.drop
        | _ => some (Draft.empty, o)
      let (entries, o) ← readEntries fuel o
      pure ((key, value) :: entries, o)

/-- Reads the items of a sequence on one line.  An item can be a key with its value; if the key is
left out, the token that tells so is left out as well. -/
def readFlowItems : Nat → Bool → Outline → Option (List Draft × Outline)
  | 0, _, _ => none
  | fuel + 1, first, o => do
    match o.tokens with
    | .flowSequenceEnd :: _ => pure ([], o.drop)
    | tokens =>
      let o ← match tokens, first with
        | _, true => some o
        | .separator :: _, false => some o.drop
        | _, false => none
      match o.tokens with
      | .flowSequenceEnd :: _ => pure ([], o.drop)
      | .key :: rest =>
        let (key, o) ← if endsItemKey rest then some (Draft.empty, o.drop.drop)
          else readNode fuel false false o.drop
        let (value, o) ← readFlowValue fuel o
        let (items, o) ← readFlowItems fuel false o
        pure (.mapping [(key, value)] :: items, o)
      | _ =>
        let (item, o) ← readNode fuel false false o
        let (items, o) ← readFlowItems fuel false o
        pure (item :: items, o)

/-- Reads the keys of a mapping on one line with their values. -/
def readFlowEntries : Nat → Bool → Outline → Option (List (Draft × Draft) × Outline)
  | 0, _, _ => none
  | fuel + 1, first, o => do
    match o.tokens with
    | .flowMappingEnd :: _ => pure ([], o.drop)
    | tokens =>
      let o ← match tokens, first with
        | _, true => some o
        | .separator :: _, false => some o.drop
        | _, false => none
      match o.tokens with
      | .flowMappingEnd :: _ => pure ([], o.drop)
      | .key :: rest =>
        let (key, o) ← if endsFlowNode rest then some (Draft.empty, o.drop)
          else readNode fuel false false o.drop
        let (value, o) ← readFlowValue fuel o
        let (entries, o) ← readFlowEntries fuel false o
        pure ((key, value) :: entries, o)
      | _ =>
        let (key, o) ← readNode fuel false false o
        let (entries, o) ← readFlowEntries fuel false o
        pure ((key, Draft.empty) :: entries, o)

/-- Reads the value of a key on one line; without a colon it is left out. -/
def readFlowValue : Nat → Outline → Option (Draft × Outline)
  | 0, _ => none
  | fuel + 1, o =>
    match o.tokens with
    | .value :: rest =>
      if endsFlowNode rest then some (Draft.empty, o.drop) else readNode fuel false false o.drop
    | _ => some (Draft.empty, o)

end

/-! ## Documents -/

/-- Takes the directives in front of a document.  There may be one version, and one short form for
each handle. -/
def takeDirectives (versioned : Bool) (o : Outline) : List Token → Option Outline
  | .version major minor :: rest =>
    if versioned ∨ major ≠ 1 ∨ (minor ≠ 1 ∧ minor ≠ 2) then none
    else takeDirectives true o rest
  | .tagHandle handle start :: rest =>
    if (o.handles.lookup handle).isSome then none
    else takeDirectives versioned { o with handles := (handle, start) :: o.handles } rest
  | rest => some { o with tokens := rest }

/-- The short forms that every document has. -/
def standardHandles : List (String × String) := [("!", "!"), ("!!", "tag:yaml.org,2002:")]

/-- The number of steps in which a node can be read off a list of tokens. -/
def readingSteps (tokens : List Token) : Nat := 2 * tokens.length + 2

/-- Reads the root node of a document after the line that starts it. -/
def readRoot (o : Outline) : Option (Draft × Outline) :=
  match o.tokens with
  | [] => some (.empty, o)
  | .documentStart :: _ => some (.empty, o)
  | .documentEnd :: _ => some (.empty, o)
  | .version .. :: _ => some (.empty, o)
  | .tagHandle .. :: _ => some (.empty, o)
  | tokens => readNode (readingSteps tokens) true false o

/-- Whether nothing but the marks of the end of a document is left. -/
def isOver (tokens : List Token) : Bool :=
  tokens.all fun
    | .documentEnd => true
    | _ => false

/-- The root node of the one document that tokens write; of no document, nothing.  A document with
directives has to have a line that starts it. -/
def Node.ofTokens? (tokens : List Token) : Option Node := do
  let o ← takeDirectives false { tokens } tokens
  let o := { o with handles := o.handles ++ standardHandles }
  let (draft, o) ← match o.tokens with
    | .documentStart :: _ => readRoot o.drop
    | [] => if tokens.isEmpty then some (Draft.empty, o) else none
    | rest =>
      if rest.length = tokens.length then readNode (readingSteps rest) true false o else none
  if isOver o.tokens then o.anchors.resolve? draft else none

/-- The root node of the one document that a text writes. -/
def read (text : String) : Option Node := do
  Node.ofTokens? (← Token.ofText? text).toList

end ComponentCatalog.Yaml
