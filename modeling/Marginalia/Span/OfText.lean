/-
Cutting a text into spans.

The text is read once from front to back. Where a comment or literal
starts, the code gathered so far becomes a span, the comment or literal
another, and reading goes on behind it; every other character joins the
code. So the spans always cover the text, whatever the rules say, and two
code spans never meet.
-/
import Marginalia.Span.Lexeme
import Marginalia.Text.Lines

namespace Marginalia

/-- The code span that starts at `start` with the given characters, if there
are any. -/
def codeSpan (start : Nat) (chars : List Char) : List Span :=
  if chars.isEmpty then [] else [{ kind := .code, start, chars }]

/-- The spans of the rest of a text. `gathered` is the code read since the
last comment or literal, last character first, and starts at `start`;
`before` is the last character read. -/
def Rules.spansFrom (rules : Rules) (literals : List LiteralRule) (start : Nat)
    (gathered : List Char) (before : Option Char) : List Char → List Span
  | [] => codeSpan start gathered.reverse
  | c :: cs =>
    match rules.lexemeAt? literals before (c :: cs) with
    | some lexeme =>
      let chars := (c :: cs).take lexeme.length
      let offset := start + gathered.length
      codeSpan start gathered.reverse
        ++ { kind := lexeme.kind, start := offset, chars,
             unclosed := lexeme.unclosed }
        :: rules.spansFrom literals (offset + chars.length) [] chars.getLast?
            ((c :: cs).drop lexeme.length)
    | none => rules.spansFrom literals start (c :: gathered) (some c) cs
termination_by cs => cs.length
decreasing_by
  · have := lexeme.length_pos
    simp only [List.length_drop, List.length_cons]
    omega
  · simp only [List.length_cons]
    omega

/-- The spans of a text. -/
def Rules.spans (rules : Rules) (text : List Char) : List Span :=
  rules.spansFrom rules.orderedLiterals 0 [] none text

/-- The diagnostics of the spans: one for a comment or literal that the text
ends inside of. -/
def Span.diagnostics (lines : Text.Lines) (spans : List Span) :
    List Diagnostic :=
  spans.filterMap fun span =>
    span.unclosed.map fun what =>
      ⟨.unclosed what, span.start, lines.lineOf span.start⟩

end Marginalia
