/-
Tags: what kind of value a scalar, a sequence or a mapping is.

Text without quotes and without a tag may be nothing, a truth value, a
number, a date or a moment; otherwise it is itself. Two words have a use of
their own: one merges mappings and the other stands for a mapping's own
value.
-/
import Marginalia.Yaml.Number
import Marginalia.Yaml.Timestamp

namespace Marginalia.Yaml

/-- What kind of value a node is. -/
inductive Tag where
  | null
  | bool
  | int
  | float
  | str
  | binary
  | moment
  | seq
  | map
  | set
  | orderedMap
  | pairs
  /-- A key whose mappings are taken over. -/
  | merge
  /-- A key under which a mapping has a value of its own. -/
  | value
  /-- A kind that is not known here. -/
  | other
  deriving DecidableEq, Repr, Inhabited

/-- How the standard tags start. -/
def Tag.stem : String := "tag:yaml.org,2002:"

/-- The standard tags by the ends of their texts. -/
def Tag.names : List (String × Tag) :=
  [("null", .null), ("bool", .bool), ("int", .int), ("float", .float),
   ("str", .str), ("binary", .binary), ("timestamp", .moment), ("seq", .seq),
   ("map", .map), ("set", .set), ("omap", .orderedMap), ("pairs", .pairs),
   ("merge", .merge), ("value", .value)]

/-- The tag that a text stands for. -/
def Tag.ofText (text : List Char) : Tag :=
  if Tag.stem.toList.isPrefixOf text then
    (Tag.names.lookup (String.ofList (text.drop Tag.stem.length))).getD .other
  else .other

/-- The words for truth and for falsehood. -/
def truthWords : List String :=
  ["yes", "Yes", "YES", "true", "True", "TRUE", "on", "On", "ON"]

@[inherit_doc truthWords]
def falsehoodWords : List String :=
  ["no", "No", "NO", "false", "False", "FALSE", "off", "Off", "OFF"]

/-- The words for nothing. -/
def nothingWords : List String := ["", "~", "null", "Null", "NULL"]

/-- What a plain scalar without a tag is. -/
def Tag.ofPlain (cs : List Char) : Tag :=
  let word := String.ofList cs
  if truthWords.contains word || falsehoodWords.contains word then .bool
  else if nothingWords.contains word then .null
  else if isFloat cs then .float
  else if isInteger cs then .int
  else if isDate cs then .moment
  else if word == "<<" then .merge
  else if word == "=" then .value
  else .str

/-- The truth value that a word stands for, in any letter case. -/
def truthOf (text : List Char) : Except ReadError Bool :=
  let word := String.ofList (text.map Char.toLower)
  if truthWords.contains word then return true
  else if falsehoodWords.contains word then return false
  else throw .noTruthValue

end Marginalia.Yaml
