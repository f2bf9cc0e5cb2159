/-
What the prose of a comment keeps.

The visible characters of a text are those that are no white space. Every step
on the way to prose keeps them in order, except that a later line of a block
comment loses its star. Trimming and the collapse of blank lines take white
space out by definition. The margin is a length to the step that removes it; it
takes nothing visible because every line that holds more than indentation starts
with the margin (`margin_common`), which is indentation itself (`margin_all`).

Which star goes is said of the line as it is written, by what stands in front of
the star and directly behind it (`Starred`).
-/
import Marginalia.Proofs.Comment.NormalForm

namespace Marginalia

-- ================================================ visible characters

/-- The characters of a text that are no white space. -/
def Text.visible (cs : List Char) : List Char := cs.filter (!Text.isBlank ·)

namespace Text

theorem isBlank_of_break {c : Char} (hc : (c == '\n') = true) :
    isBlank c = true := by
  rw [beq_iff_eq.1 hc]
  decide

/-- The visible characters of two texts, one behind the other. -/
theorem visible_append (front back : List Char) :
    visible (front ++ back) = visible front ++ visible back :=
  List.filter_append front back

theorem visible_cons_blank {c : Char} (hc : isBlank c = true) (cs : List Char) :
    visible (c :: cs) = visible cs :=
  List.filter_cons_of_neg (by simp [hc])

theorem visible_cons {c : Char} (hc : isBlank c = false) (cs : List Char) :
    visible (c :: cs) = c :: visible cs :=
  List.filter_cons_of_pos (by simp [hc])

theorem visible_eq_nil {cs : List Char} (h : ∀ c ∈ cs, isBlank c = true) :
    visible cs = [] :=
  List.filter_eq_nil_iff.2 fun c hc => by simp [h c hc]

section Trimming

variable {p : Char → Bool} (hp : ∀ c, p c = true → isBlank c = true)
include hp

/-- Blanks taken off the front leave the visible characters. -/
theorem visible_dropWhile (cs : List Char) :
    visible (cs.dropWhile p) = visible cs := by
  have hdropped : visible (cs.takeWhile p) = [] :=
    visible_eq_nil fun c hc => hp c (List.mem_takeWhile_imp hc)
  calc visible (cs.dropWhile p)
      = visible (cs.takeWhile p) ++ visible (cs.dropWhile p) := by
        rw [hdropped, List.nil_append]
    _ = visible cs := by rw [← visible_append, List.takeWhile_append_dropWhile]

theorem visible_dropRightWhile (cs : List Char) :
    visible (dropRightWhile p cs) = visible cs := by
  obtain ⟨tail, hcs, htail, -⟩ := dropRightWhile_split p cs
  have hdropped : visible tail = [] :=
    visible_eq_nil fun c hc => hp c (htail c hc)
  calc visible (dropRightWhile p cs)
      = visible (dropRightWhile p cs) ++ visible tail := by
        rw [hdropped, List.append_nil]
    _ = visible cs := by rw [← visible_append, ← hcs]

theorem visible_trimWhile (cs : List Char) :
    visible (trimWhile p cs) = visible cs := by
  rw [trimWhile, visible_dropRightWhile hp, visible_dropWhile hp]

end Trimming

theorem visible_trimRight (cs : List Char) :
    visible (trimRight cs) = visible cs :=
  visible_dropRightWhile (fun _ hc => hc) cs

theorem visible_trim (cs : List Char) : visible (trim cs) = visible cs :=
  visible_trimWhile (fun _ hc => hc) cs

/-- The line feeds between lines show nothing. -/
theorem visible_joinLines (lines : List (List Char)) :
    visible (joinLines lines) = lines.flatMap visible := by
  induction lines with
  | nil => rfl
  | cons first lines ih =>
      cases lines with
      | nil => simp [joinLines]
      | cons second lines =>
          rw [joinLines_cons, visible_append,
            visible_cons_blank (by decide), ih]
          exact List.flatMap_cons.symm

/-- Cutting a text into lines takes only the line feeds. -/
theorem visible_splitLines (cs : List Char) :
    (splitLines cs).flatMap visible = visible cs := by
  rw [← visible_joinLines, joinLines_splitLines]

end Text

namespace Prose

open Text (visible)

-- ======================================================= indentation

/-- The margin of lines takes nothing visible from one of them. -/
theorem visible_removeMargin {lines : List (List Char)} {line : List Char}
    (hline : line ∈ lines) :
    visible (removeMargin (margin lines) line) = visible line := by
  have hblank : ∀ cs : List Char, cs.all isIndent = true → visible cs = [] :=
    fun cs hall =>
    Text.visible_eq_nil fun c hc =>
      isBlank_of_isIndent (List.all_eq_true.1 hall c hc)
  rw [removeMargin]
  split
  · next hindent => rw [hblank line hindent, hblank [] rfl]
  · next hfilled =>
    have hmem : line ∈ lines.filter (fun line => !line.all isIndent) :=
      List.mem_filter.2 ⟨hline, by simpa using hfilled⟩
    obtain ⟨rest, rfl⟩ := margin_common line hmem
    rw [List.drop_left, Text.visible_append, hblank _ (margin_all lines),
      List.nil_append]

/-- Lines moved to the margin lose white space only. -/
theorem visible_dedent (lines : List (List Char)) :
    (dedent lines).flatMap visible = lines.flatMap visible := by
  have hmargin : ∀ line ∈ lines.map Text.trimRight,
      visible (removeMargin (margin (lines.map Text.trimRight)) line)
        = visible line :=
    fun _ hline => visible_removeMargin hline
  rw [dedent, List.flatMap_map, List.flatMap_congr hmargin, List.flatMap_map]
  exact List.flatMap_congr fun line _ => Text.visible_trimRight line

-- ======================================================== line feeds

/-- Empty lines that are left out hold nothing visible. The count of breaks so
far only decides how many are kept. -/
theorem visible_collapseBreaks (cs : List Char) :
    ∀ breaks : Nat, visible (collapseBreaks breaks cs) = visible cs := by
  induction cs with
  | nil =>
      intro breaks
      rfl
  | cons c cs ih =>
      intro breaks
      rw [collapseBreaks]
      split
      · next hc =>
        have hblank := Text.isBlank_of_break hc
        rw [Text.visible_cons_blank hblank]
        split
        · rw [Text.visible_cons_blank hblank, ih]
        · exact ih breaks
      · calc visible (c :: collapseBreaks 0 cs)
            = visible [c] ++ visible (collapseBreaks 0 cs) :=
              Text.visible_append [c] _
          _ = visible (c :: cs) := by
            rw [ih, ← Text.visible_append, List.singleton_append]

/-- So laying out the body of a comment keeps what is visible in it. -/
theorem visible_finish (body : List Char) :
    visible (finish body) = visible body := by
  rw [finish, Text.visible_trimRight,
    Text.visible_trimWhile fun _ => Text.isBlank_of_break,
      visible_collapseBreaks]

-- ============================================================= stars

/-- The first visible character of a line is a star, and the character directly
behind it, if there is one, is no slash. -/
def Starred (line : List Char) : Prop :=
  ∃ front back, line = front ++ '*' :: back
    ∧ (∀ c ∈ front, Text.isBlank c = true)
    ∧ back.head? ≠ some '/'

theorem trimLeft_starred {front : List Char}
    (hfront : ∀ c ∈ front, Text.isBlank c = true) (back : List Char) :
    Text.trimLeft (front ++ '*' :: back) = '*' :: back := by
  rw [Text.trimLeft, List.dropWhile_append_of_pos hfront]
  exact List.dropWhile_cons_of_neg (by decide)

/-- A line is starred if its first visible character is a star that does not
close a comment. -/
theorem starred_iff {line : List Char} :
    Starred line ↔ (Text.trimLeft line).head? = some '*'
      ∧ (Text.trimLeft line).tail.head? ≠ some '/' := by
  constructor
  · rintro ⟨front, back, rfl, hfront, hback⟩
    rw [trimLeft_starred hfront]
    exact ⟨rfl, hback⟩
  · rintro ⟨hhead, hback⟩
    refine ⟨line.takeWhile Text.isBlank, _, ?_,
      fun c => List.mem_takeWhile_imp, hback⟩
    rw [List.cons_head?_tail hhead, Text.trimLeft,
      List.takeWhile_append_dropWhile]

instance : DecidablePred Starred := fun _ => decidable_of_iff' _ starred_iff

/-- The visible characters of a later line of a block comment, without the star
it starts with. -/
def unstarred (line : List Char) : List Char :=
  if Starred line then (visible line).tail else visible line

/-- A line without visible characters has none behind a star either. -/
theorem unstarred_eq_nil {line : List Char} (h : visible line = []) :
    unstarred line = [] := by
  rw [unstarred, h]
  exact ite_self _

/-- A line without a star is left as it is. -/
theorem stripStar_eq_self {line : List Char} (h : ¬ Starred line) :
    stripStar line = line := by
  rw [starred_iff] at h
  rw [stripStar]
  split
  · rfl
  · next c rest hslash hstar =>
    rw [hstar] at h
    exact absurd ⟨rfl, fun hhead => hslash (Option.some.inj hhead)⟩ h
  · next hstar =>
    rw [hstar] at h
    exact absurd ⟨rfl, (Option.some_ne_none '/').symm⟩ h
  · rfl

/-- A line with one loses the star and what is in front of it. -/
theorem visible_stripStar_starred {front back : List Char}
    (hfront : ∀ c ∈ front, Text.isBlank c = true)
    (hback : back.head? ≠ some '/') :
    visible (stripStar (front ++ '*' :: back)) = visible back := by
  rw [stripStar, trimLeft_starred hfront]
  cases back with
  | nil => rfl
  | cons c back =>
      have hslash : c ≠ '/' := fun hc => hback (congrArg some hc)
      split
      · next hstar =>
        exact absurd (List.cons.inj (List.cons.inj hstar).2).1 hslash
      · next hstar =>
        -- The white space behind the star goes with it.
        obtain ⟨rfl, rfl⟩ := List.cons.inj (List.cons.inj hstar).2
        split
        · next hc => exact (Text.visible_cons_blank hc back).symm
        · rfl
      · next hstar => cases hstar
      · next hother _ => exact (hother c back rfl).elim

/-- A line loses the star it starts with and nothing else that is visible. -/
theorem visible_stripStar (line : List Char) :
    visible (stripStar line) = unstarred line := by
  rw [unstarred]
  split
  · next hstarred =>
    obtain ⟨front, back, rfl, hfront, hback⟩ := hstarred
    rw [visible_stripStar_starred hfront hback, Text.visible_append,
      Text.visible_eq_nil hfront, List.nil_append,
      Text.visible_cons (by decide), List.tail_cons]
  · next hstarred => rw [stripStar_eq_self hstarred]

-- Only a slash directly behind the star keeps it.
example : visible (stripStar [' ', '*', ' ', '/']) = ['/']
    ∧ visible (stripStar [' ', '*', '/', ' ']) = ['*', '/'] := by decide

-- ============================================================= prose

/-- The lines of a block comment lose their stars, all but the first, which
stands behind the opener. -/
theorem visible_blockLines {text first : List Char} {rest : List (List Char)}
    (hlines : Text.splitLines text = first :: rest) :
    (blockLines text).flatMap visible
      = visible first ++ rest.flatMap unstarred := by
  have htitle : (if (Text.trim first).isEmpty then
      [] else [Text.trim first]).flatMap visible
      = visible first := by
    rw [← Text.visible_trim first]
    split
    · next hempty =>
      rw [List.isEmpty_iff.1 hempty]
      rfl
    · exact List.flatMap_singleton _ _
  have hrest : (dedent (rest.map stripStar)).flatMap visible
      = rest.flatMap unstarred := by
    rw [visible_dedent, List.flatMap_map]
    exact List.flatMap_congr fun line _ => visible_stripStar line
  rw [blockLines, hlines, List.flatMap_append, htitle, hrest]

/-- The text of a line comment keeps all its visible characters. -/
theorem visible_ofText_line (text : List Char) :
    visible (ofText .line text) = visible text := by
  rw [ofText]
  split
  · next hblank =>
    rw [Text.visible_eq_nil (List.all_eq_true.1 hblank)]
    rfl
  · rw [visible_finish, Text.visible_joinLines, visible_dedent,
      Text.visible_splitLines]

/-- That of a block comment keeps all but the stars at the start of lines. -/
theorem visible_ofText_block {text first : List Char} {rest : List (List Char)}
    (hlines : Text.splitLines text = first :: rest) :
    visible (ofText .block text) = visible first ++ rest.flatMap unstarred := by
  rw [ofText]
  split
  · next hblank =>
    -- A text that shows nothing has no line that shows something.
    have hnothing : visible first ++ rest.flatMap visible = [] := by
      rw [← List.flatMap_cons, ← hlines, Text.visible_splitLines]
      exact Text.visible_eq_nil (List.all_eq_true.1 hblank)
    obtain ⟨hfirst, hrest⟩ := List.append_eq_nil_iff.1 hnothing
    have hunstarred : rest.flatMap unstarred = [] :=
      List.flatMap_eq_nil_iff.2 fun line hline =>
        unstarred_eq_nil (List.flatMap_eq_nil_iff.1 hrest line hline)
    rw [hfirst, hunstarred]
    rfl
  · rw [visible_finish, Text.visible_joinLines, visible_blockLines hlines]

/-- Prose shows what the comment shows, in order. Only in a block comment is
anything visible lost: the star that a line behind the first starts with, if no
slash follows it. -/
theorem prose_loses_only_stars (text : List Char) :
    visible (ofText .line text) = visible text
      ∧ ∃ first rest, text = Text.joinLines (first :: rest)
        ∧ (∀ line ∈ first :: rest, '\n' ∉ line)
        ∧ visible (ofText .block text)
          = visible first ++ rest.flatMap unstarred := by
  refine ⟨visible_ofText_line text, ?_⟩
  obtain ⟨first, rest, hlines⟩ :=
    List.exists_cons_of_ne_nil (Text.splitLines_ne_nil text)
  refine ⟨first, rest, ?_, ?_, visible_ofText_block hlines⟩
  · rw [← hlines, Text.joinLines_splitLines]
  · rw [← hlines]
    exact Text.not_mem_splitLines

end Prose

end Marginalia
