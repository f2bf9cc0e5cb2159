/-
Code tokens: the words, numbers, operators and signs of the code spans,
one token for each literal, and one for each preprocessor line.
-/
namespace Marginalia

/-- The kinds of code tokens. -/
inductive TokenKind where
  | word
  | number
  | operator
  | punct
  | literal
  | directive
  deriving DecidableEq, Repr, Inhabited

/-- The name of a token kind. -/
def TokenKind.name : TokenKind → String
  | word => "word"
  | number => "number"
  | operator => "operator"
  | punct => "punct"
  | literal => "literal"
  | directive => "directive"

/-- A token and the offset of its first character. -/
structure Token where
  kind : TokenKind
  start : Nat
  text : String
  deriving DecidableEq, Repr, Inhabited

/-- The offset just past the token. -/
def Token.stop (token : Token) : Nat := token.start + token.text.length

/-- Whether the token is a word. -/
def Token.isWord (token : Token) : Bool := token.kind == .word

end Marginalia
