/-
Spans: a text cut into comments, literals and the code between them.

Spans follow each other without a gap, so their characters in order are
the text. A comment or literal that the text ends inside of says so.
-/
import Marginalia.Diagnostic

namespace Marginalia

/-- A stretch of the text: its delimiters are part of it. -/
structure Span where
  kind : SpanKind
  start : Nat
  chars : List Char
  /-- What the text ends inside of, if this span has no closer. -/
  unclosed : Option Unclosed := none
  deriving DecidableEq, Repr

/-- The offset just past the span. -/
def Span.stop (span : Span) : Nat := span.start + span.chars.length

/-- The span as a text. -/
def Span.text (span : Span) : String := String.ofList span.chars

end Marginalia
