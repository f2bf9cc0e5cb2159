/-
The association index: the records of a text, one after the other.

An index reads no further into its text than the next record needs. What
is wrong with the text's comments and literals is known from the start;
what is wrong with its scopes only when the records have run out, and
from then on the index is exhausted.

Taking records one by one and collecting them all are defined apart:
the first reads item by item, the second runs the matcher to the end.
-/
import Marginalia.Association.Matcher

namespace Marginalia

/-- A text on the way to its records. -/
structure Index where
  reading : Reading
  matcher : Matcher := {}
  /-- The items still to be read; none once the end of the text was. -/
  unread : Option (List Item)
  /-- Records that came out and were not handed out. -/
  ready : List Record := []
  /-- The problems known so far. -/
  diagnostics : List Diagnostic
  notices : List Notice
  /-- A record was asked for and there was none. -/
  exhausted : Bool := false

namespace Index

/-- The index after a step of its matcher. -/
def absorb (index : Index) (matched : Matched) (unread : Option (List Item)) :
    Index :=
  { index with
    matcher := matched.matcher
    unread
    ready := index.ready ++ matched.records
    notices := index.notices ++ matched.notices }

/-- Reads items until a record comes out, or else to the end of the text. -/
def advance (index : Index) : List Item → Index
  | [] => index.absorb (index.matcher.finish index.reading) none
  | item :: items =>
    let read :=
      index.absorb (index.matcher.step index.reading item) (some items)
    if read.ready.isEmpty then read.advance items else read

/-- The index with a record ready, if there is another. -/
def fill (index : Index) : Index :=
  if index.ready.isEmpty then
    match index.unread with
    | some items => index.advance items
    | none => index
  else index

/-- Notes that the records ran out. -/
def exhaust (index : Index) : Index :=
  if index.exhausted then index
  else
    { index with
      diagnostics := index.diagnostics ++ index.matcher.tracker.diagnostics
      exhausted := true }

/-- The next record, if there is another. -/
def next (index : Index) : Option Record × Index :=
  let filled := index.fill
  match filled.ready with
  | record :: ready => (some record, { filled with ready })
  | [] => (none, filled.exhaust)

/-- All records that are left. -/
def collect (index : Index) : List Record × Index :=
  let read :=
    match index.unread with
    | some items => index.absorb (index.matcher.run index.reading items) none
    | none => index
  (read.ready, { read with ready := [] }.exhaust)

end Index

end Marginalia
