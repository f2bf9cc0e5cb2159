/-
Scanning a text: from its characters to the records of its doc comments.

Spans are cut at once; comments and tokens are matched as the index is
read. Nothing is shared between scans.
-/
import Marginalia.Association.Index
import Marginalia.Comment.OfSpans
import Marginalia.Dialect.Tables
import Marginalia.Pattern.Reader
import Marginalia.Scan.Options
import Marginalia.Token.OfSpans

namespace Marginalia

/-- Comments and tokens of a text in the order in which they start. -/
def Rules.items (rules : Rules) (text : List Char) : List Item :=
  let spans := rules.spans text
  mergeItems (rules.comments (.ofText text) spans) (rules.tokens text spans)

/-- The index of a text under rules that have the options applied. -/
def Rules.index (rules : Rules) (options : ScanOptions) (text : List Char) :
    Index :=
  let lines := Text.Lines.ofText text
  let diagnostics := Span.diagnostics lines (rules.spans text)
  { reading := {
      rules
      scopeLines := lines
      text
      lines
      window := options.window
      writtenWindow := options.writtenWindow
      ignored := ignoredLines options.ignorePatterns text }
    unread := some (rules.items text)
    diagnostics
    notices := diagnostics.map .problem }

/-- All that a scan finds. -/
structure ScanResult where
  records : List Record := []
  diagnostics : List Diagnostic := []
  notices : List Notice := []

namespace ScanResult

/-- The records of comments that document a declaration. -/
def bound (result : ScanResult) : List Record :=
  result.records.filter (!·.isOrphan)

/-- The records of comments that document none. -/
def orphans (result : ScanResult) : List Record :=
  result.records.filter (·.isOrphan)

end ScanResult

/-- Everything a fresh index has to give. -/
def Index.result (index : Index) : ScanResult :=
  let (records, spent) := index.collect
  let result : ScanResult := { records, diagnostics := spent.diagnostics }
  let scanned :=
    Notice.scanned index.reading.text.length index.reading.rules.dialect
      result.bound.length result.orphans.length result.diagnostics.length
  { result with notices := spent.notices ++ [scanned] }

/-- Scans a text by a table of rules. -/
def Rules.scan (rules : Rules) (options : ScanOptions) (text : List Char) :
    Except MarkerError ScanResult :=
  (rules.withOptions options).map fun applied =>
    (applied.index options text).result

end Marginalia
