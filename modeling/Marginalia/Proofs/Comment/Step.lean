/-
Reading comments off the spans, one span at a time.

What is carried from span to span is the line on which code was last seen and
the run of doc lines that is open. `readSpan` is the step: the comments that
are finished by a span, and what is carried on. The comments of a list of
spans are those of its steps (`commentsFrom_cons`), so everything said of
them is a lemma about one step and an induction.
-/
import Marginalia.Comment.OfSpans

namespace Marginalia

/-- What is carried from span to span. -/
structure CommentState where
  codeLine : Nat := 0
  run : Option CommentRun := none

/-- The marker of a doc line that may join a run. -/
def Rules.docLine? (rules : Rules) (kind : CommentKind) (verdict : Verdict) :
    Option DocMarker :=
  match verdict, kind, rules.mergesLineComments with
  | .doc marker, .line, true => some marker
  | _, _, _ => none

/-- A comment that starts on the line, with its verdict. -/
def Rules.readVerdict (rules : Rules) (line : Nat) (state : CommentState)
    (span : Span) (kind : CommentKind) (verdict : Verdict) :
    List Comment × CommentState :=
  match rules.docLine? kind verdict with
  | some marker =>
    if state.run.any (·.admits marker.placement) then
      ([], { state with run := state.run.map (·.push span marker) })
    else (rules.finishRun state.run,
      { state with run := some (.single span marker line) })
  | none =>
    (rules.finishRun state.run ++ [rules.comment span kind verdict line],
      { state with run := none })

/-- A comment among the spans. -/
def Rules.readComment (rules : Rules) (lines : Text.Lines)
    (state : CommentState) (span : Span) (kind : CommentKind) :
    List Comment × CommentState :=
  let line := lines.lineOf span.start
  rules.readVerdict line state span kind
    (rules.verdict kind span.chars (line == state.codeLine))

/-- Code or a literal among the spans. -/
def Rules.readCode (rules : Rules) (lines : Text.Lines) (state : CommentState)
    (span : Span) : List Comment × CommentState :=
  let content := Text.trimRight span.chars
  if content.isEmpty then
    ([], { state with run := state.run.map (·.skip span.chars) })
  else
    (rules.finishRun state.run,
      { codeLine := lines.lineOf (span.start + content.length - 1) })

/-- One span: the comments it finishes, and what is carried on. -/
def Rules.readSpan (rules : Rules) (lines : Text.Lines) (state : CommentState)
    (span : Span) : List Comment × CommentState :=
  match span.kind with
  | .comment kind => rules.readComment lines state span kind
  | _ => rules.readCode lines state span

section

variable (rules : Rules) (lines : Text.Lines) (state : CommentState)

/-- A comment is judged, and so added to the run before it or given. -/
theorem readSpan_comment {span : Span} {kind : CommentKind}
    (h : span.kind = .comment kind) :
    rules.readSpan lines state span
      = rules.readComment lines state span kind := by
  rw [Rules.readSpan, h]

/-- Any other span moves the line of code on, and may end the run. -/
theorem readSpan_code {span : Span} (h : ∀ kind, span.kind ≠ .comment kind) :
    rules.readSpan lines state span = rules.readCode lines state span := by
  unfold Rules.readSpan
  split
  · next kind hkind => exact absurd hkind (h kind)
  · rfl

/-- A span's comments come before those of the spans behind it. -/
theorem commentsFrom_cons (span : Span) (spans : List Span) :
    rules.commentsFrom lines state.codeLine state.run (span :: spans)
      = (rules.readSpan lines state span).1
        ++ rules.commentsFrom lines (rules.readSpan lines state span).2.codeLine
          (rules.readSpan lines state span).2.run spans := by
  rw [Rules.commentsFrom]
  split
  · next kind hkind =>
    rw [readSpan_comment rules lines state hkind]
    simp only [Rules.readComment, Rules.readVerdict, Rules.docLine?]
    generalize rules.verdict kind span.chars
        (lines.lineOf span.start == state.codeLine) = verdict
    generalize rules.mergesLineComments = merges
    have halone : ∀ comments : List Comment,
        rules.finishRun state.run
            ++ rules.comment span kind verdict (lines.lineOf span.start)
            :: comments
          = rules.finishRun state.run
            ++ [rules.comment span kind verdict (lines.lineOf span.start)]
            ++ comments :=
      fun comments => by rw [List.append_assoc]; rfl
    cases verdict with
    | doc marker =>
        cases kind with
        | line =>
            cases merges with
            | true => simp only; split <;> rfl
            | false => exact halone _
        | block => exact halone _
    | plain => exact halone _
    | ignored => exact halone _
  · next hkind =>
    rw [readSpan_code rules lines state hkind]
    unfold Rules.readCode
    simp only
    split <;> rfl

end

-- ============================================================== runs

/-- Span after span: the comments finished by them, and what is carried on. -/
def Rules.readSpans (rules : Rules) (lines : Text.Lines)
    (state : CommentState) : List Span → List Comment × CommentState
  | [] => ([], state)
  | span :: spans =>
    let first := rules.readSpan lines state span
    let rest := rules.readSpans lines first.2 spans
    (first.1 ++ rest.1, rest.2)

/-- Reading spans in two parts, the second from the state that the first
leaves. -/
theorem commentsFrom_append (rules : Rules) (lines : Text.Lines)
    (front back : List Span) :
    ∀ state : CommentState,
      rules.commentsFrom lines state.codeLine state.run (front ++ back)
      = (rules.readSpans lines state front).1
        ++ rules.commentsFrom lines
          (rules.readSpans lines state front).2.codeLine
          (rules.readSpans lines state front).2.run back := by
  induction front with
  | nil => intro state; rfl
  | cons span front ih =>
      intro state
      rw [List.cons_append, commentsFrom_cons, ih, ← List.append_assoc]
      rfl

end Marginalia
