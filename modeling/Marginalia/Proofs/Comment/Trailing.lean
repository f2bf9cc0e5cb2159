/-
Comments that trail code.

A comment trails code if a visible character of code or of a literal stands in
front of it on its line. The reading of comments remembers one number only,
the line of the last such character it came by. That is enough: lines grow
with offsets, so no other line that was seen can be the comment's
(`SeenCode.trails`), whatever literals and comments of several lines lie
between.
-/
import Marginalia.Proofs.Comment.Step
import Marginalia.Proofs.Token.Joined

namespace Marginalia

-- ======================================================= white space

/-- The visible characters of a text stand up to the last of the trimmed one. -/
theorem Text.VisibleAt.lt_trimRight {cs : List Char} {i : Nat}
    (h : Text.VisibleAt cs i) :
    i < (Text.trimRight cs).length := by
  obtain ⟨tail, hcs, htail, -⟩ := Text.dropRightWhile_split Text.isBlank cs
  obtain ⟨c, hc, hvisible⟩ := h
  by_contra hbehind
  have hat : cs[i]? = (Text.trimRight cs ++ tail)[i]? := congrArg (·[i]?) hcs
  rw [hat, List.getElem?_append_right (Nat.le_of_not_lt hbehind)] at hc
  rw [htail c (List.mem_of_getElem? hc)] at hvisible
  cases hvisible

/-- The last character of a trimmed text is visible. -/
theorem Text.visibleAt_trimRight {cs : List Char} (h : Text.trimRight cs ≠ []) :
    Text.VisibleAt cs ((Text.trimRight cs).length - 1) := by
  obtain ⟨tail, hcs, -, hlast⟩ := Text.dropRightWhile_split Text.isBlank cs
  have hget := List.getLast?_eq_some_getLast h
  have hpos : 0 < (Text.trimRight cs).length := List.length_pos_iff.2 h
  refine ⟨_, ?_, hlast _ hget⟩
  calc cs[(Text.trimRight cs).length - 1]?
      = (Text.trimRight cs ++ tail)[(Text.trimRight cs).length - 1]? :=
        congrArg (·[_]?) hcs
    _ = (Text.trimRight cs)[(Text.trimRight cs).length - 1]? :=
        List.getElem?_append_left (by omega)
    _ = _ := List.getLast?_eq_getElem?.symm.trans hget

/-- A place further on is on the same line or a later one. -/
theorem Text.Lines.lineOf_mono (lines : Text.Lines) {a b : Nat} (h : a ≤ b) :
    lines.lineOf a ≤ lines.lineOf b := by
  refine List.countP_mono_left fun start _ hstart => ?_
  exact decide_eq_true (Nat.le_trans (of_decide_eq_true hstart) h)

-- ========================================================== the test

/-- Whether the stretch is that of a comment. -/
def SpanKind.isComment : SpanKind → Bool
  | .comment _ => true
  | _ => false

theorem SpanKind.isComment_iff {kind : SpanKind} :
    kind.isComment = true ↔ ∃ comment, kind = .comment comment := by
  cases kind <;> simp [isComment]

theorem SpanKind.isComment_eq_false {kind : SpanKind} :
    kind.isComment = false ↔ ∀ comment, kind ≠ .comment comment := by
  cases kind <;> simp [isComment]

/-- Whether a visible character of code or of a literal is at the offset. -/
def codeAt (spans : List Span) (offset : Nat) : Bool :=
  spans.any fun span => !span.kind.isComment && decide (span.start ≤ offset)
    && (span.chars[offset - span.start]?).any (!Text.isBlank ·)

/-- Whether code or a literal stands in front of the span on the line on which
the span starts. -/
def trailsCode (lines : Text.Lines) (spans : List Span) (span : Span) : Bool :=
  (List.range span.start).any fun offset =>
    codeAt spans offset && lines.lineOf offset == lines.lineOf span.start

/-- Code is at an offset if a span that is no comment has a visible
character there. -/
theorem codeAt_iff {spans : List Span} {offset : Nat} :
    codeAt spans offset = true ↔ ∃ span ∈ spans, span.kind.isComment = false
      ∧ ∃ i, offset = span.start + i ∧ Text.VisibleAt span.chars i := by
  rw [codeAt, List.any_eq_true]
  refine exists_congr fun span => and_congr_right fun _ => ?_
  rw [Bool.and_eq_true, Bool.and_eq_true, Bool.not_eq_true', decide_eq_true_iff,
    Option.any_eq_true, and_assoc]
  refine and_congr_right fun _ => ⟨?_, ?_⟩
  · rintro ⟨hle, c, hc, hvisible⟩
    exact ⟨offset - span.start, by omega, c, hc, by simpa using hvisible⟩
  · rintro ⟨i, rfl, c, hc, hvisible⟩
    rw [Nat.add_sub_cancel_left]
    exact ⟨Nat.le_add_right _ _, c, hc, by simpa using hvisible⟩

/-- Code of two runs of spans is code of either. -/
theorem codeAt_append (front back : List Span) (offset : Nat) :
    codeAt (front ++ back) offset
      = (codeAt front offset || codeAt back offset) :=
  List.any_append

/-- Code lies between the ends of its tiling. -/
theorem Tiles.codeAt_bounds {low : Nat} {spans : List Span}
    (htiles : Tiles low spans) {offset : Nat} (h : codeAt spans offset = true) :
    low ≤ offset ∧ offset < tilesEnd low spans := by
  obtain ⟨span, hspan, -, i, rfl, hvisible⟩ := codeAt_iff.1 h
  obtain ⟨hlow, -, hhigh⟩ := htiles.mem hspan
  have hlt := hvisible.lt
  rw [Span.stop] at hhigh
  omega

-- =============================================== the remembered line

/-- The line is that of the last code among the spans, and zero if there is
none. -/
structure SeenCode (lines : Text.Lines) (spans : List Span) (codeLine : Nat) :
    Prop where
  le : ∀ offset, codeAt spans offset = true → lines.lineOf offset ≤ codeLine
  reached : codeLine = 0 ∨ ∃ offset,
    codeAt spans offset = true ∧ lines.lineOf offset = codeLine

namespace SeenCode

variable {lines : Text.Lines} {front : List Span} {span : Span} {codeLine : Nat}

/-- Where nothing was read, no line of code is remembered. -/
theorem fresh (lines : Text.Lines) : SeenCode lines [] 0 :=
  ⟨fun _ h => (nomatch h), .inl rfl⟩

/-- A span without code. -/
theorem idle (h : SeenCode lines front codeLine)
    (hidle : ∀ offset, codeAt [span] offset = false) :
    SeenCode lines (front ++ [span]) codeLine := by
  have hsame : ∀ offset,
      codeAt (front ++ [span]) offset = codeAt front offset := by
    intro offset
    rw [codeAt_append, hidle, Bool.or_false]
  refine ⟨fun offset hcode => h.le offset ((hsame offset).symm.trans hcode), ?_⟩
  refine h.reached.imp_right ?_
  rintro ⟨offset, hcode, hline⟩
  exact ⟨offset, (hsame offset).trans hcode, hline⟩

/-- The last visible character of a span of code is the last of all. -/
theorem ofCode (htiles : Tiles 0 (front ++ [span]))
    (hkind : span.kind.isComment = false)
    (hcode : Text.trimRight span.chars ≠ []) :
    SeenCode lines (front ++ [span])
      (lines.lineOf (span.start + (Text.trimRight span.chars).length - 1)) := by
  obtain ⟨hfront, hstart, -, -⟩ := htiles.of_append
  have hpos : 0 < (Text.trimRight span.chars).length :=
    List.length_pos_iff.2 hcode
  refine ⟨fun offset hoffset => lines.lineOf_mono ?_, .inr ⟨_, ?_, rfl⟩⟩
  · rw [codeAt_append, Bool.or_eq_true] at hoffset
    rcases hoffset with hoffset | hoffset
    · have hlt := (hfront.codeAt_bounds hoffset).2
      omega
    · obtain ⟨other, hother, -, i, rfl, hi⟩ := codeAt_iff.1 hoffset
      rw [List.mem_singleton.1 hother] at hi ⊢
      have hlt := hi.lt_trimRight
      omega
  · rw [codeAt_append, Bool.or_eq_true]
    refine .inr (codeAt_iff.2 ⟨span, List.mem_singleton_self _, hkind, _, ?_,
      Text.visibleAt_trimRight hcode⟩)
    omega

end SeenCode

/-- A comment leaves the remembered line as it is. -/
theorem readComment_codeLine (rules : Rules) (lines : Text.Lines)
    (state : CommentState) (span : Span) (kind : CommentKind) :
    (rules.readComment lines state span kind).2.codeLine = state.codeLine := by
  unfold Rules.readComment Rules.readVerdict
  simp only
  split
  · split <;> rfl
  · rfl

/-- One span: the line that is remembered is that of the last code so far. -/
theorem SeenCode.readSpan {lines : Text.Lines} {front : List Span}
    {state : CommentState} (h : SeenCode lines front state.codeLine)
    (rules : Rules) {span : Span} (htiles : Tiles 0 (front ++ [span])) :
    SeenCode lines (front ++ [span])
      (rules.readSpan lines state span).2.codeLine := by
  cases hkind : span.kind.isComment with
  | true =>
      obtain ⟨kind, hcomment⟩ := SpanKind.isComment_iff.1 hkind
      rw [readSpan_comment rules lines state hcomment, readComment_codeLine]
      refine h.idle fun offset => ?_
      simp [codeAt, hkind]
  | false =>
      rw [readSpan_code rules lines state (SpanKind.isComment_eq_false.1 hkind),
        Rules.readCode]
      split
      · next hblank =>
        have hall := Text.trimRight_eq_nil.1 (List.isEmpty_iff.1 hblank)
        refine h.idle fun offset => Bool.eq_false_iff.2 fun hoffset => ?_
        obtain ⟨other, hother, -, i, -, c, hc, hvisible⟩ := codeAt_iff.1 hoffset
        rw [List.mem_singleton.1 hother] at hc
        rw [hall c (List.mem_of_getElem? hc)] at hvisible
        cases hvisible
      · next hvisible =>
        exact .ofCode htiles hkind fun hnil =>
          hvisible (List.isEmpty_iff.2 hnil)

/-- The remembered line decides whether the next span trails code. -/
theorem SeenCode.trails {lines : Text.Lines} {front back : List Span}
    {span : Span} {codeLine : Nat} (h : SeenCode lines front codeLine)
    (hlines : ∀ offset, 1 ≤ lines.lineOf offset)
    (htiles : Tiles 0 (front ++ span :: back)) :
    (lines.lineOf span.start == codeLine)
      = trailsCode lines (front ++ span :: back) span := by
  obtain ⟨hfront, hback⟩ := htiles.of_append
  have hstart : span.start = tilesEnd 0 front := hback.1
  have hle : codeLine ≤ lines.lineOf span.start := by
    rcases h.reached with hzero | ⟨offset, hcode, hline⟩
    · omega
    · have hlt := (hfront.codeAt_bounds hcode).2
      exact hline ▸ lines.lineOf_mono (by omega)
  rw [Bool.eq_iff_iff, beq_iff_eq, trailsCode, List.any_eq_true]
  constructor
  · intro heq
    have hpos := hlines span.start
    obtain ⟨offset, hcode, hline⟩ := h.reached.resolve_left (by omega)
    have hlt := (hfront.codeAt_bounds hcode).2
    refine ⟨offset, List.mem_range.2 (by omega), ?_⟩
    rw [codeAt_append, hcode, hline, heq, Bool.true_or, Bool.true_and,
      beq_self_eq_true]
  · rintro ⟨offset, hlt, hoffset⟩
    rw [List.mem_range] at hlt
    rw [Bool.and_eq_true, codeAt_append, Bool.or_eq_true, beq_iff_eq] at hoffset
    obtain ⟨hcode, hline⟩ := hoffset
    rcases hcode with hcode | hcode
    · have hseen := h.le offset hcode
      omega
    · have hbehind := (hback.codeAt_bounds hcode).1
      omega

end Marginalia
