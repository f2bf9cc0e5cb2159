/-
Whether one text is part of another.
-/
namespace Marginalia.Text

/-- Whether the piece occurs in the text. -/
def occursIn (piece : List Char) : List Char → Bool
  | [] => piece.isEmpty
  | c :: cs => piece.isPrefixOf (c :: cs) || occursIn piece cs

end Marginalia.Text
