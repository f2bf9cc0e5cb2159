/-
The nodes of a document in YAML: scalars, sequences and mappings, each with
a tag that says what kind of value it is.

Tokens are put together to nodes by their brackets and blocks. A node may
be given a name by an anchor, and an alias stands for the node of a name. A
plain scalar without a tag gets the one that its text stands for.
-/
import Marginalia.Yaml.Tag
import Marginalia.Yaml.Token

namespace Marginalia.Yaml

/-- A node of a document. -/
inductive Node where
  | scalar (tag : Tag) (text : List Char)
  | sequence (tag : Tag) (items : List Node)
  | mapping (tag : Tag) (entries : List (Node × Node))
  /-- A collection that the node itself is part of, by its name. -/
  | around (name : List Char)
  deriving Repr, Inhabited

/-- The tag of a node. -/
def Node.tag : Node → Tag
  | scalar tag _ => tag
  | sequence tag _ => tag
  | mapping tag _ => tag
  | around _ => .map

/-- Whether a node stands for the collection of a name around it. -/
def Node.isAround (name : List Char) : Node → Bool
  | around other => other == name
  | _ => false

/-- The entry without the merging of the mapping of the given name, of which it
is an entry; none if nothing is left. -/
def Node.mergingOthers (name : List Char) : Node × Node → Option (Node × Node)
  | (key, .sequence tag items) =>
    if key.tag == .merge then
      some (key, .sequence tag (items.filter (!·.isAround name)))
    else some (key, .sequence tag items)
  | (key, content) =>
    if key.tag == .merge && content.isAround name then none
    else some (key, content)

/-- The node of a name: a mapping that merges itself gains nothing by it. -/
def Node.named (name : List Char) : Node → Node
  | mapping tag entries => mapping tag (entries.filterMap (mergingOthers name))
  | node => node

mutual

/-- Whether a node is part of itself. -/
def Node.holdsItself : Node → Bool
  | scalar .. => false
  | sequence _ items => Node.itemsHoldThemselves items
  | mapping _ entries => Node.entriesHoldThemselves entries
  | around _ => true

/-- Whether one of the items is part of itself. -/
def Node.itemsHoldThemselves : List Node → Bool
  | [] => false
  | item :: items => item.holdsItself || Node.itemsHoldThemselves items

/-- Whether a key or a value is part of itself. -/
def Node.entriesHoldThemselves : List (Node × Node) → Bool
  | [] => false
  | (key, content) :: entries =>
    key.holdsItself || content.holdsItself || Node.entriesHoldThemselves entries

end

/-- A node that is left out. -/
def Node.empty : Node := .scalar .null []

/-- What is known while tokens are put together. -/
structure NodeState where
  tokens : List Token
  /-- What comes after the tokens, if the text could not be read to its end. -/
  failure : Option ReadError
  /-- What the handles of tags stand for. -/
  handles : List (List Char × List Char) := []
  /-- The nodes of names; none while the node is still open. -/
  anchors : List (List Char × Option Node) := []

/-- Puts tokens together. -/
abbrev NodeReader (α : Type) := StateT NodeState (Except ReadError) α

namespace NodeReader

/-- The next token, which stays; none at the end of the text. -/
def peek : NodeReader (Option Token) := do
  let state ← get
  match state.tokens, state.failure with
  | token :: _, _ => return some token
  | [], some error => throw error
  | [], none => return none

/-- Passes over the next token. -/
def skip : NodeReader Unit :=
  modify fun state => { state with tokens := state.tokens.drop 1 }

/-- Whether the next token is one of the given ones. -/
def nextIs (tokens : List Token) : NodeReader Bool := do
  return (← peek).any tokens.contains

/-- Passes over the next token if it is the given one. -/
def accept (token : Token) : NodeReader Bool := do
  if ← nextIs [token] then
    skip
    return true
  else return false

/-- Passes over the next token, which has to be the given one. -/
def expect (token : Token) : NodeReader Unit := do
  if !(← accept token) then throw .malformed

-- ============================================================== tags

/-- What the handles of tags stand for from the start. -/
def standardHandles : List (List Char × List Char) :=
  [(['!'], ['!']), (['!', '!'], Tag.stem.toList)]

/-- The text of a tag; none for the tag that leaves the choice open. -/
def tagText (handle : Option (List Char)) (suffix : List Char) :
    NodeReader (Option (List Char)) := do
  match handle with
  | none => return if suffix == ['!'] then none else some suffix
  | some handle =>
    match (← get).handles.lookup handle with
    | none => throw .malformed
    | some stem =>
      return if stem ++ suffix == ['!'] then none else some (stem ++ suffix)

/-- What stands in front of a node. -/
structure Properties where
  anchor : Option (List Char) := none
  /-- The node has a tag, which may leave the choice open. -/
  tagged : Bool := false
  tag : Option Tag := none

/-- The anchor, if one is next. -/
def readAnchor (properties : Properties) : NodeReader Properties := do
  match ← peek with
  | some (.anchor name) => do
    skip
    return { properties with anchor := some name }
  | _ => return properties

/-- The tag, if one is next. -/
def readTagToken (properties : Properties) : NodeReader Properties := do
  match ← peek with
  | some (.tag handle suffix) => do
    skip
    return { properties with
      tagged := true, tag := (← tagText handle suffix).map Tag.ofText }
  | _ => return properties

/-- An anchor and a tag in either order. -/
def readProperties : NodeReader Properties := do
  match ← peek with
  | some (.anchor _) => do readTagToken (← readAnchor {})
  | _ => do readAnchor (← readTagToken {})

/-- Gives an open node its name; no name is given twice. -/
def openAnchor (name : Option (List Char)) : NodeReader Unit := do
  match name with
  | none => return ()
  | some name => do
    if ((← get).anchors.lookup name).isSome then throw .malformed
    modify fun state => { state with anchors := (name, none) :: state.anchors }

/-- Completes the node of a name. -/
def closeAnchor (name : Option (List Char)) (node : Node) :
    NodeReader Node := do
  match name with
  | none => return node
  | some name => do
    let node := node.named name
    modify fun state =>
      { state with anchors := (name, some node) :: state.anchors }
    return node

/-- The node of a name, or what stands for it while it is open. -/
def findAnchor (name : List Char) : NodeReader Node := do
  match (← get).anchors.lookup name with
  | none => throw .malformed
  | some none => return .around name
  | some (some node) => return node

-- =========================================================== scalars

/-- The tag of a scalar: plain ones go by their text, and so do those whose tag
leaves the choice open. -/
def scalarTag (properties : Properties) (text : List Char) (plain : Bool) :
    Tag :=
  match properties.tag with
  | some tag => tag
  | none => if plain || properties.tagged then Tag.ofPlain text else .str

end NodeReader

-- ============================================================= nodes

namespace Node

open NodeReader

/-- Where a node may stand. -/
inductive Place where
  | flow
  | block
  /-- After a key, where a sequence may stand at the key's own column. -/
  | afterKey
  deriving DecidableEq, Repr

/-- How deeply collections may be nested. -/
def maxDepth : Nat := 485

mutual

/-- The next node; `room` is how many levels of collections may still be
opened. -/
def read (fuel room : Nat) (place : Place) : NodeReader Node :=
  match fuel with
  | 0 => throw .malformed
  | fuel + 1 => do
    if room == 0 then throw .tooDeep
    match ← peek with
    | some (.reference name) => do
      skip
      findAnchor name
    | _ => do
      let properties ← readProperties
      let next ← peek
      let collection (read : NodeReader Node) : NodeReader Node := do
        openAnchor properties.anchor
        closeAnchor properties.anchor (← read)
      let sequence (read : NodeReader (List Node)) : NodeReader Node :=
        collection do return .sequence (properties.tag.getD .seq) (← read)
      let mapping (read : NodeReader (List (Node × Node))) : NodeReader Node :=
        collection do return .mapping (properties.tag.getD .map) (← read)
      match next, place with
      | some .entry, .afterKey => sequence (readEntries fuel (room - 1) true)
      | some (.scalar text plain), _ => do
        skip
        openAnchor properties.anchor
        closeAnchor properties.anchor
          (.scalar (scalarTag properties text plain) text)
      | some .flowSequence, _ => do
        skip
        sequence (readFlowItems fuel (room - 1) true)
      | some .flowMapping, _ => do
        skip
        mapping (readFlowPairs fuel (room - 1) true)
      | some .sequence, .flow => throw .malformed
      | some .mapping, .flow => throw .malformed
      | some .sequence, _ => do
        skip
        sequence (readEntries fuel (room - 1) false)
      | some .mapping, _ => do
        skip
        mapping (readPairs fuel (room - 1))
      | _, _ => do
        if properties.anchor.isNone && !properties.tagged then throw .malformed
        openAnchor properties.anchor
        closeAnchor properties.anchor
          (.scalar (scalarTag properties [] true) [])

/-- A node, or an empty one if one of the given tokens or the end is next. -/
def readOr (fuel room : Nat) (place : Place) (stops : List Token) :
    NodeReader Node :=
  match fuel with
  | 0 => throw .malformed
  | fuel + 1 => do
    if ← nextIs stops then
      if room == 0 then throw .tooDeep
      return .empty
    else read fuel room place

/-- The entries of a block sequence. A sequence at its key's column is `bare`:
it ends without a mark of its own. -/
def readEntries (fuel room : Nat) (bare : Bool) : NodeReader (List Node) :=
  match fuel with
  | 0 => throw .malformed
  | fuel + 1 => do
    if ← accept .entry then
      let stops : List Token :=
        if bare then [.entry, .key, .value, .blockEnd] else [.entry, .blockEnd]
      let item ← readOr fuel room .block stops
      return item :: (← readEntries fuel room bare)
    else
      if !bare then expect .blockEnd
      return []

/-- The entries of a block mapping. -/
def readPairs (fuel room : Nat) : NodeReader (List (Node × Node)) :=
  match fuel with
  | 0 => throw .malformed
  | fuel + 1 => do
    if ← accept .blockEnd then return []
    expect .key
    let key ← readOr fuel room .afterKey [.key, .value, .blockEnd]
    let value ←
      if ← accept .value then
        readOr fuel room .afterKey [.key, .value, .blockEnd]
      else pure .empty
    return (key, value) :: (← readPairs fuel room)

/-- The items of a sequence in brackets. An item with a key is a mapping of one
entry. -/
def readFlowItems (fuel room : Nat) (first : Bool) : NodeReader (List Node) :=
  match fuel with
  | 0 => throw .malformed
  | fuel + 1 => do
    if ← accept .flowSequenceEnd then return []
    if !first then expect .comma
    if ← accept .flowSequenceEnd then return []
    let item ←
      if ← accept .key then do
        if room == 0 then throw .tooDeep
        let key ←
          readOr fuel (room - 1) .flow [.value, .comma, .flowSequenceEnd]
        let value ←
          if ← accept .value then
            readOr fuel (room - 1) .flow [.comma, .flowSequenceEnd]
          else pure .empty
        pure (.mapping .map [(key, value)])
      else read fuel room .flow
    return item :: (← readFlowItems fuel room false)

/-- The entries of a mapping in braces. -/
def readFlowPairs (fuel room : Nat) (first : Bool) :
    NodeReader (List (Node × Node)) :=
  match fuel with
  | 0 => throw .malformed
  | fuel + 1 => do
    if ← accept .flowMappingEnd then return []
    if !first then expect .comma
    if ← accept .flowMappingEnd then return []
    let pair ←
      if ← accept .key then do
        let key ← readOr fuel room .flow [.value, .comma, .flowMappingEnd]
        let value ←
          if ← accept .value then
            readOr fuel room .flow [.comma, .flowMappingEnd]
          else pure .empty
        pure (key, value)
      else do pure (← read fuel room .flow, .empty)
    return pair :: (← readFlowPairs fuel room false)

end

end Node

-- ========================================================= documents

namespace NodeReader

/-- The directives in front of a document: one version at the most, which has
to be the first, and one meaning for a handle. -/
def readDirectives : Nat → Bool → NodeReader Unit
  | 0, _ => throw .malformed
  | fuel + 1, versioned => do
    match ← peek with
    | some (.directive (.version major)) => do
      if versioned || major != 1 then throw .malformed
      skip
      readDirectives fuel true
    | some (.directive (.tags handle stem)) => do
      if ((← get).handles.lookup handle).isSome then throw .malformed
      skip
      modify fun state =>
        { state with handles := (handle, stem) :: state.handles }
      readDirectives fuel versioned
    | some (.directive .other) => do
      skip
      readDirectives fuel versioned
    | _ =>
      modify fun state =>
        { state with handles := state.handles ++ standardHandles }

/-- The node after the mark of a document's start. -/
def readContent (fuel : Nat) : NodeReader Node := do
  match ← peek with
  | none => return .empty
  | some (.directive _) => return .empty
  | some .documentStart => return .empty
  | some .documentEnd => return .empty
  | _ => Node.read fuel Node.maxDepth .block

/-- Passes over marks of a document's end. -/
def skipEnds : Nat → NodeReader Unit
  | 0 => return ()
  | fuel + 1 => do
    if ← accept .documentEnd then skipEnds fuel

/-- The node of the only document of a text; none if there is no document. -/
def readDocument (fuel : Nat) : NodeReader (Option Node) := do
  match ← peek with
  | none => return none
  | some token => do
    let explicit :=
      match token with
      | .directive _ => true
      | .documentStart => true
      | _ => false
    let node ←
      if explicit then do
        readDirectives fuel false
        expect .documentStart
        readContent fuel
      else do
        modify fun state => { state with handles := standardHandles }
        Node.read fuel Node.maxDepth .block
    skipEnds fuel
    if (← peek).isSome then throw .malformed
    return some node

end NodeReader

/-- The node of the document that a text holds; none if it holds none. -/
def nodeOf (text : List Char) : Except ReadError (Option Node) :=
  let (tokens, failure) := tokensOf text
  (NodeReader.readDocument (4 * tokens.length + 8)).run' { tokens, failure }

end Marginalia.Yaml
