/-
Reading documents in YAML.

The value of a node goes by its tag. A key of a mapping that is written
twice takes the later value; a collection is no key. The entries of merged
mappings come before a mapping's own, so its own win. Collections are
filled from the outside in, so of two faults the less nested one is told.
-/
import Marginalia.Text.Base64
import Marginalia.Yaml.Node

namespace Marginalia.Yaml

/-- Whether a document may hold a character. -/
def isAllowed (c : Char) : Bool :=
  c == '\t' || c == '\n' || c == '\r' || (' ' ≤ c && c ≤ '~') || c == '\x85'
    || (0xa0 ≤ c.toNat && c.toNat ≤ 0xfffd) || 0x10000 ≤ c.toNat

namespace Node

mutual

/-- The text of a scalar, or of what a mapping has under the key for its own
value. -/
def text : Node → Except ReadError (List Char)
  | scalar _ text => .ok text
  | sequence .. => .error .malformed
  | mapping _ entries => ownText entries
  | around _ => .error .malformed

/-- The text under the key for a mapping's own value. -/
def ownText : List (Node × Node) → Except ReadError (List Char)
  | [] => .error .malformed
  | (key, value) :: entries =>
    if key.tag == .value then text value else ownText entries

end

/-- The bytes that a text writes. -/
def bytesOf (text : List Char) : Except ReadError Value :=
  match Text.fromBase64? text with
  | some data =>
    if text.all (·.toNat < 0x80) then .ok (.bytes data) else .error .malformed
  | none => .error .malformed

/-- The value of a scalar's text by its tag. -/
def scalarValue (tag : Tag) (text : List Char) : Except ReadError Value :=
  match tag with
  | .null => .ok .null
  | .bool => (truthOf text).map .bool
  | .int => (integerOf text).map .int
  | .float => (floatOf text).map .float
  | .str => .ok (.str (String.ofList text))
  | .binary => bytesOf text
  | .moment => momentOf text
  | _ => .error .malformed

/-- Whether the value of a node goes by its text. -/
def isTextual : Tag → Bool
  | .null => true
  | .bool => true
  | .int => true
  | .float => true
  | .str => true
  | .binary => true
  | .moment => true
  | _ => false

/-- An entry of a mapping, or why it is none. -/
abbrev EntryValue := Except ReadError (Value × Value)

/-- A collection of a kind without its items, where there is no room for them;
with room, the node is none of that kind. -/
def hollow (room : Nat) (tag : Tag) : Except ReadError Value :=
  match room, tag with
  | 0, .seq => .ok (.list [])
  | 0, .orderedMap => .ok (.list [])
  | 0, .pairs => .ok (.list [])
  | 0, .map => .ok (.map [])
  | 0, .set => .ok (.set [])
  | _, _ => .error .malformed

mutual

/-- The value of a node, with collections nested deeper than the room left
empty. -/
def value (room : Nat) : Node → Except ReadError Value
  | scalar tag text =>
    if isTextual tag then scalarValue tag text else hollow room tag
  | sequence tag items =>
    match room, tag with
    | room + 1, .seq => do return .list (← itemValues room items)
    | room + 1, .orderedMap => do return .list (← pairValues room items)
    | room + 1, .pairs => do return .list (← pairValues room items)
    | room, tag => hollow room tag
  | mapping tag entries =>
    match room, tag with
    | room + 1, .map => do
      let (merged, own) ← entryValues room entries
      return .ofEntries (← (merged ++ own).mapM id)
    | room + 1, .set => do
      let (merged, own) ← entryValues room entries
      return .setOf ((← (merged ++ own).mapM id).map (·.1))
    | room, tag =>
      if isTextual tag then do scalarValue tag (← ownText entries)
      else hollow room tag
  | around _ => .ok (.map [])

/-- The values of nodes. -/
def itemValues (room : Nat) : List Node → Except ReadError (List Value)
  | [] => .ok []
  | item :: items => do
    let first ← value room item
    return first :: (← itemValues room items)

/-- The values of mappings of one entry each, as pairs. -/
def pairValues (room : Nat) : List Node → Except ReadError (List Value)
  | [] => .ok []
  | mapping _ [(key, content)] :: items => do
    let pair := Value.pair (← value room key) (← value room content)
    return pair :: (← pairValues room items)
  | _ :: _ => .error .malformed

/-- The entries that a mapping takes over from others, and its own. -/
def entryValues (room : Nat) :
    List (Node × Node) → Except ReadError (List EntryValue × List EntryValue)
  | [] => .ok ([], [])
  | (key, content) :: entries =>
    if key.tag == .merge then do
      let merged ← mergedValues room content
      let (more, own) ← entryValues room entries
      return (merged ++ more, own)
    else do
      let (merged, own) ← entryValues room entries
      let entry : EntryValue := do
        let name ← if key.tag == .value then scalarValue .str (← text key)
          else value room key
        if !name.isKey then throw .malformed
        return (name, ← value room content)
      return (merged, entry :: own)

/-- The entries that a mapping, or a sequence of mappings, has to give to
another. Of several mappings the first wins. -/
def mergedValues (room : Nat) : Node → Except ReadError (List EntryValue)
  | mapping _ entries => do
    let (merged, own) ← entryValues room entries
    return merged ++ own
  | sequence _ items => mergedItems room items
  | scalar .. => .error .malformed
  | around _ => .ok []

/-- The entries of the mappings of a sequence, the last mapping's first. -/
def mergedItems (room : Nat) : List Node → Except ReadError (List EntryValue)
  | [] => .ok []
  | mapping _ entries :: items => do
    let (merged, own) ← entryValues room entries
    return (← mergedItems room items) ++ merged ++ own
  | around _ :: items => mergedItems room items
  | _ :: _ => .error .malformed

end

/-- The value of a node in a document of the given size. Of several faults
the one that is nested least is told, and of those the first. -/
def wholeValue (size : Nat) (node : Node) : Except ReadError Value :=
  match node.value size with
  | .ok v => .ok v
  | .error error =>
    .error (((List.range size).findSome? fun room =>
      match node.value room with
      | .ok _ => none
      | .error shallow => some shallow).getD error)

end Node

/-- The value of a document. -/
def read (text : List Char) : Except ReadError Value := do
  if !text.all isAllowed then throw .malformed
  match ← nodeOf text with
  | none => return .null
  | some node => do
    let value ← node.wholeValue text.length
    if node.holdsItself then throw .tooDeep
    return value

end Marginalia.Yaml
