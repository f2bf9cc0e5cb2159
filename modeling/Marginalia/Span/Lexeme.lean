/-
Lexemes: the comment or literal that starts at a place of the text.

Three things can start at a place, tried in this order: a line comment, a
block comment, and the literals of the table, longer openers first. A
literal may decline its opener (it continues a word, or it is bounded and
does not close in time), and then a shorter one gets its turn. What
nothing claims is code.
-/
import Marginalia.Span.Basic
import Marginalia.Text.Word

namespace Marginalia

/-- A comment or literal: its kind and its length in characters. -/
structure Lexeme where
  kind : SpanKind
  length : Nat
  unclosed : Option Unclosed := none
  length_pos : 0 < length
  deriving DecidableEq, Repr

/-- The lexeme of the given length, if it has a character. -/
def Lexeme.ofLength? (kind : SpanKind) (length : Nat)
    (unclosed : Option Unclosed) : Option Lexeme :=
  if h : 0 < length then some { kind, length, unclosed, length_pos := h }
  else none

-- ========================================================== comments

/-- The characters in front of the first place where the delimiter stands. -/
def Delimiter.find? (d : Delimiter) : List Char → Option Nat
  | [] => if d.isEmpty then some 0 else none
  | c :: cs => if d.startsAt (c :: cs) then some 0 else (d.find? cs).map (· + 1)

/-- The number of characters up to the end of the block comment that the
text is inside of, `depth` further comments being open around it. A closer
counts before an opener where both could stand. -/
def Rules.nestedLength? (rules : Rules) (depth : Nat) : List Char → Option Nat
  | [] => none
  | c :: cs =>
    if rules.blockCloser.startsAt (c :: cs) then
      match depth with
      | 0 => some rules.blockCloser.length
      | d + 1 =>
        (rules.nestedLength? d (cs.drop (rules.blockCloser.length - 1))).map
          (· + rules.blockCloser.length)
    else if rules.blockOpener.opensAt (c :: cs) then
      (rules.nestedLength? (depth + 1)
        (cs.drop (rules.blockOpener.length - 1))).map
        (· + rules.blockOpener.length)
    else (rules.nestedLength? depth cs).map (· + 1)
termination_by cs => cs.length
decreasing_by all_goals simp only [List.length_drop, List.length_cons]; omega

/-- The number of characters after a block opener up to the end of the
comment, if it has one. -/
def Rules.blockBodyLength? (rules : Rules) (body : List Char) : Option Nat :=
  if rules.nestedBlocks then rules.nestedLength? 0 body
  else (rules.blockCloser.find? body).map (· + rules.blockCloser.length)

/-- The line comment at the start of the text, up to the next line feed, be
it part of the opener. -/
def Rules.lineLexeme? (cs : List Char) : Option Lexeme :=
  Lexeme.ofLength? (.comment .line) (cs.takeWhile (· ≠ '\n')).length none

/-- The block comment at the start of the text, up to its closer or the end
of the text. -/
def Rules.blockLexeme? (rules : Rules) (cs : List Char) : Option Lexeme :=
  let body := cs.drop rules.blockOpener.length
  match rules.blockBodyLength? body with
  | some n =>
    Lexeme.ofLength? (.comment .block) (rules.blockOpener.length + n) none
  | none =>
    Lexeme.ofLength? (.comment .block) (rules.blockOpener.length + body.length)
      (some .comment)

-- ========================================================== literals

/-- How the body of a literal goes on. -/
inductive BodyEnd where
  /-- A closer follows, this many characters after the literal's first. -/
  | closer (offset : Nat)
  /-- The literal is bounded and does not close in time. -/
  | outOfBounds
  /-- The text ends first. -/
  | endOfText
  deriving DecidableEq, Repr

/-- Whether a bounded literal may not go on with character `c`, which stands
`offset` characters after its first. -/
def LiteralRule.exceeds (rule : LiteralRule) (offset : Nat) (c : Char) : Bool :=
  match rule.maxLength with
  | none => false
  | some limit => limit < offset || c == '\n'

/-- Whether a closer written twice, and meant as content, is next. -/
def LiteralRule.doublesCloser (rule : LiteralRule) (cs : List Char) : Bool :=
  rule.doubledCloser && !rule.closer.isEmpty
    && (rule.closer.chars ++ rule.closer.chars).isPrefixOf cs

/-- The end of a literal whose body goes on with the text, `offset`
characters after the literal's first: an escape takes the next character
with it, a doubled closer is content, any other closer ends the body. -/
def LiteralRule.bodyEnd (rule : LiteralRule) (offset : Nat) :
    List Char → BodyEnd
  | [] => .endOfText
  | c :: cs =>
    if rule.exceeds offset c then .outOfBounds
    else if rule.escape == some [c] then rule.bodyEnd (offset + 2) (cs.drop 1)
    else if rule.closer.startsAt (c :: cs) then
      if rule.doublesCloser (c :: cs) then
        rule.bodyEnd (offset + 2 * rule.closer.length)
          (cs.drop (2 * rule.closer.length - 1))
      else .closer offset
    else rule.bodyEnd (offset + 1) cs
termination_by cs => cs.length
decreasing_by all_goals simp only [List.length_drop, List.length_cons]; omega

/-- Whether the content of a bounded literal is one character or starts with
an escape. -/
def LiteralRule.holdsOneChar (rule : LiteralRule) (content : List Char) :
    Bool :=
  match content with
  | [] => false
  | [_] => true
  | _ => rule.escape.any (·.isPrefixOf content)

/-- The literal at the start of the text, after character `before`, if the
rule applies there. -/
def LiteralRule.lexeme? (rule : LiteralRule) (before : Option Char)
    (cs : List Char) : Option Lexeme :=
  if !rule.opener.opensAt cs then none
  else if rule.wordPrefixed && before.any Text.isWordChar then none
  else
    let body := cs.drop rule.opener.length
    match rule.bodyEnd rule.opener.length body with
    | .outOfBounds => none
    | .closer offset =>
      if rule.maxLength.isSome
          && !rule.holdsOneChar (body.take (offset - rule.opener.length))
      then none
      else Lexeme.ofLength? rule.kind (offset + rule.closer.length) none
    | .endOfText =>
      if rule.maxLength.isSome then none
      else
        Lexeme.ofLength? rule.kind (rule.opener.length + body.length)
          (some (.literal rule.opener))

-- ====================================================== alternatives

/-- The literal rules in the order in which they are tried: longer openers
first, and otherwise as in the table. -/
def Rules.orderedLiterals (rules : Rules) : List LiteralRule :=
  rules.literals.mergeSort fun a b => b.opener.length ≤ a.opener.length

/-- The comment or literal at the start of the text, after character
`before`; the literals are tried in the order given. -/
def Rules.lexemeAt? (rules : Rules) (literals : List LiteralRule)
    (before : Option Char) (cs : List Char) : Option Lexeme :=
  if rules.lineComment.opensAt cs then Rules.lineLexeme? cs
  else if rules.blockOpener.opensAt cs then rules.blockLexeme? cs
  else literals.findSome? (·.lexeme? before cs)

end Marginalia
