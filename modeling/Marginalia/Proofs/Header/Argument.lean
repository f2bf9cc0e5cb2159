/-
What surrounds an argument.

The innermost expression of a header is found in two passes: brackets are
followed to the innermost one that stays open, and behind it the last comma is
looked for. Both start anew at that bracket. So of a header that goes on, behind
an opening bracket, without closing it, all that stands up to the bracket is
forgotten, however unbalanced it is (`innermost_behind`), and what the header
declares is what its last argument declares by itself
(`argument_declares_alone`).
-/
import Marginalia.Dialect.Tables
import Marginalia.Proofs.Header.Bracketed
import Marginalia.Token.OfSpans

namespace Marginalia

/-- A run in which no closing bracket is unmatched: each closes one that the run
itself opened. -/
def ClosesOwn (ts : List Token) : Prop := bracketDepth 0 ts ≠ none

instance (ts : List Token) : Decidable (ClosesOwn ts) :=
  inferInstanceAs (Decidable (bracketDepth 0 ts ≠ none))

/-- What follows a run only depends on it through the brackets it leaves
open. -/
theorem innermostFrom_append (rest front : List Token) :
    ∀ opened, ∃ opened',
      innermostFrom opened (front ++ rest) = innermostFrom opened' rest := by
  induction front with
  | nil =>
      intro opened
      exact ⟨opened, rfl⟩
  | cons t front ih =>
      intro opened
      rw [List.cons_append, innermostFrom]
      split
      · exact ih _
      · split
        · exact ih _
        · exact ih _

/-- Brackets further out count only if none of the inner ones stays open. -/
theorem innermostFrom_outer (outer : List (List Token)) (ts : List Token) :
    ∀ opened : List (List Token), bracketDepth opened.length ts ≠ none →
      innermostFrom (opened ++ outer) ts
        = (innermostFrom opened ts).or outer.head? := by
  induction ts with
  | nil =>
      intro opened _
      exact List.head?_append
  | cons t ts ih =>
      intro opened h
      rw [bracketDepth] at h
      rw [innermostFrom, innermostFrom]
      split at h
      · next hopens =>
        rw [if_pos hopens, if_pos hopens]
        exact ih (ts :: opened) h
      · next hopens =>
        rw [if_neg hopens, if_neg hopens]
        split at h
        · next hcloses =>
          rw [if_pos hcloses, if_pos hcloses]
          cases opened with
          | nil => exact absurd rfl h
          | cons o opened => exact ih opened h
        · next hcloses =>
          rw [if_neg hcloses, if_neg hcloses]
          exact ih opened h

/-- An open bracket hides what stands in front of it. -/
theorem innermost_behind (bars : Bool) (around : List Token) {opening : Token}
    (hopening : opening.opens = true) {argument : List Token}
    (h : ClosesOwn argument) :
    innermost bars (around ++ opening :: argument)
      = innermost bars argument := by
  obtain ⟨opened, hopened⟩ :=
    innermostFrom_append (opening :: argument) around []
  have hinside : innermostFrom [] (around ++ opening :: argument)
      = some ((innermostFrom [] argument).getD argument) := by
    calc innermostFrom [] (around ++ opening :: argument)
        = innermostFrom ([] ++ argument :: opened) argument := by
          rw [hopened, innermostFrom, if_pos hopening, List.nil_append]
      _ = (innermostFrom [] argument).or (some argument) :=
          innermostFrom_outer (argument :: opened) argument [] h
      _ = some ((innermostFrom [] argument).getD argument) := by
          cases innermostFrom [] argument <;> rfl
  rw [innermost, innermost, hinside]
  rfl

/-- What an argument declares does not depend on what surrounds it. -/
theorem argument_declares_alone (rules : Rules) (terminator : Terminator)
    (enclosing : ScopeKind) (around : List Token) {opening : Token}
    (hopening : opening.text = "(" ∨ opening.text = "[" ∨ opening.text = "\x7b")
    {argument : List Token} (h : ClosesOwn argument) :
    rules.analyzeHeader terminator enclosing (around ++ opening :: argument)
      = rules.analyzeHeader terminator enclosing argument := by
  have hopens : opening.opens = true := by
    simpa [Token.opens, or_assoc] using hopening
  rw [Rules.analyzeHeader, Rules.analyzeHeader,
    innermost_behind _ around hopens h]

/-- The arguments of a call, the last one a named function. -/
def callbackArgument : List Char := "a, function f(b, c)".toList

/-- A callback inside a call is read alone, whatever is unbalanced around the
call. -/
theorem callback_declares_alone :
    ClosesOwn (codeTokens 13 callbackArgument)
      ∧ Dialect.javascript.rules.analyzeHeader .body .file
        (codeTokens 0 "x) ], y = on(a, function f(b, c)".toList)
        = some ⟨.function, "f", 16⟩ := by
  have howns : ClosesOwn (codeTokens 13 callbackArgument) := by decide +kernel
  have hsplit : codeTokens 0 "x) ], y = on(a, function f(b, c)".toList
      = codeTokens 0 "x) ], y = on".toList
        ++ ⟨.punct, 12, "("⟩ :: codeTokens 13 callbackArgument := by
    decide +kernel
  refine ⟨howns, ?_⟩
  rw [hsplit, argument_declares_alone _ .body .file _ (.inl rfl) howns]
  decide +kernel

end Marginalia
