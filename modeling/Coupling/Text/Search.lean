/-!
# Searching text
-/

namespace Coupling.Text

/-- The text `needle` occurs in another text. -/
def occurs (needle : List Char) : List Char → Bool
  | [] => needle.isEmpty
  | c :: cs => needle.isPrefixOf (c :: cs) || occurs needle cs

/-- Replaces each arrow by a space. -/
def spaceArrows : List Char → List Char
  | '-' :: '>' :: rest => ' ' :: spaceArrows rest
  | c :: rest => c :: spaceArrows rest
  | [] => []

end Coupling.Text
