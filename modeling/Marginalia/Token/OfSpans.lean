/-
The tokens of a text.

Code spans fall apart into words, numbers, operators and single signs,
with white space between them; a token never crosses the end of its span.
A literal span is one token and a comment none.

In dialects with a preprocessor, a number sign that is the first thing on
its line makes the whole logical line one token, continued over line
feeds that follow a backslash. Whatever starts inside it is part of it,
so a literal that starts on such a line is dropped with all its lines.
-/
import Marginalia.Span.OfText
import Marginalia.Token.Basic

namespace Marginalia

-- ======================================================== code spans

/-- The operators of more than one sign, in the order in which they are
tried. -/
def operators : List (List Char) :=
  [['=', '=', '='], ['!', '=', '='], ['.', '.', '.'], ['=', '>'], ['-', '>'],
   [':', ':'], ['=', '='], ['!', '='], ['<', '='], ['>', '='], ['&', '&'],
   ['|', '|'], ['+', '+'], ['-', '-'], ['+', '='], ['-', '='], ['*', '='],
   ['/', '='], ['%', '='], ['?', '.'], ['?', '?']]

/-- The characters a word may start with. -/
def startsWord (c : Char) : Bool :=
  (Text.isWordChar c && !Text.isDigit c) || c == '$'

/-- The characters a word may go on with. -/
def continuesWord (c : Char) : Bool := Text.isWordChar c || c == '$'

/-- The characters a number may go on with. -/
def continuesNumber (c : Char) : Bool := Text.isWordChar c || c == '.'

/-- The kind of the token that starts with `c` and goes on with `cs`, and the
number of its characters after the first. -/
def tokenAt (c : Char) (cs : List Char) : TokenKind × Nat :=
  if startsWord c then (.word, (cs.takeWhile continuesWord).length)
  else if Text.isDigit c then (.number, (cs.takeWhile continuesNumber).length)
  else
    match operators.find? (·.isPrefixOf (c :: cs)) with
    | some operator => (.operator, operator.length - 1)
    | none => (.punct, 0)

/-- The tokens of a stretch of code that starts at `start`. -/
def codeTokens (start : Nat) : List Char → List Token
  | [] => []
  | c :: cs =>
    if Text.isBlank c then codeTokens (start + 1) cs
    else
      let (kind, more) := tokenAt c cs
      ⟨kind, start, String.ofList (c :: cs.take more)⟩
        :: codeTokens (start + 1 + more) (cs.drop more)
termination_by cs => cs.length
decreasing_by all_goals simp only [List.length_drop, List.length_cons]; omega

/-- The tokens of a span, directives aside. -/
def Span.tokens (span : Span) : List Token :=
  match span.kind with
  | .code => codeTokens span.start span.chars
  | .literal _ => [⟨.literal, span.start, span.text⟩]
  | .comment _ => []

-- ======================================================== directives

/-- Whether only white space stands between the offset and the line feed
before it. -/
def startsLine (text : List Char) (offset : Nat) : Bool :=
  ((text.take offset).reverse.takeWhile (· ≠ '\n')).all Text.isBlank

/-- The length of the line at the start of the text, continued over line
feeds that follow a backslash; `before` is the character before the text.
A carriage return in front of the line feed is not part of the line. -/
def logicalLineLength (before : Char) : List Char → Nat
  | [] => 0
  | c :: cs =>
    if c == '\n' && before != '\\' then 0
    else if c == '\r' && cs.head? == some '\n' then 0
    else logicalLineLength c cs + 1

/-- The token of the directive whose number sign is `token`. -/
def Token.directive (text : List Char) (token : Token) : Token :=
  let rest := text.drop (token.start + 1)
  ⟨.directive, token.start,
    String.ofList ('#' :: rest.take (logicalLineLength '#' rest))⟩

/-- The tokens with directives put together: a token that starts before
`directiveEnd` is part of a directive. -/
def gatherDirectives (text : List Char) (directiveEnd : Nat) :
    List Token → List Token
  | [] => []
  | token :: tokens =>
    if token.start < directiveEnd then gatherDirectives text directiveEnd tokens
    else if token.text == "#" && token.kind == .punct
        && startsLine text token.start then
      let directive := token.directive text
      directive :: gatherDirectives text directive.stop tokens
    else token :: gatherDirectives text directiveEnd tokens

/-- The tokens of a text that was cut into the given spans. -/
def Rules.tokens (rules : Rules) (text : List Char) (spans : List Span) :
    List Token :=
  let tokens := spans.flatMap Span.tokens
  if rules.preprocessor then gatherDirectives text 0 tokens else tokens

end Marginalia
