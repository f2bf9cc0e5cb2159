/-
Diagnostics: what is wrong with a text, without stopping the scan.

A text can end inside a comment or a literal, close a brace that was not
opened, or end with braces open. Each problem is reported with the offset
it refers to and that offset's line.
-/
import Marginalia.Dialect.Rules
import Marginalia.Scope.Basic

namespace Marginalia

/-- What a text may end inside of. -/
inductive Unclosed where
  | comment
  | literal (opener : Delimiter)
  deriving DecidableEq, Repr

/-- The problems a text may have. -/
inductive Problem where
  /-- The text ends inside a comment or literal. -/
  | unclosed (what : Unclosed)
  /-- A brace closes nothing. -/
  | strayBrace
  /-- The text ends at `textEnd` with `count` scopes open. -/
  | openScopes (count : Nat) (textEnd : Int) (innermost : ScopeKind)
  deriving DecidableEq, Repr

/-- A problem and where it is. -/
structure Diagnostic where
  problem : Problem
  offset : Nat
  line : Nat
  deriving DecidableEq, Repr

/-- What is said of a problem. -/
def Problem.message : Problem → String
  | unclosed .comment => "Unterminated block comment"
  | unclosed (.literal opener) =>
    "Unterminated literal opened with " ++ opener.text
  | strayBrace => "Closing brace without a matching opening brace"
  | openScopes count textEnd innermost =>
    toString count ++ " scope(s) still open at end of input (offset "
      ++ toString textEnd ++ "), innermost " ++ innermost.name ++ " opened here"

/-- What is said of a diagnostic: the problem after its line. -/
def Diagnostic.message (d : Diagnostic) : String :=
  "line " ++ toString d.line ++ ": " ++ d.problem.message

end Marginalia
