import Coupling.Text.Slice
import Coupling.Text.Utf8

/-!
# Lines

Lines end at a newline, and a carriage return before the newline belongs to the ending. The number
of a line is one-based.
-/

namespace Coupling.Text

/-- Byte offsets just after the newlines of a text whose first byte has offset `here`. -/
def startsAfter (here : Nat) : List Char → List Nat
  | [] => []
  | c :: cs =>
    let next := here + c.utf8Size
    if c = '\n' then next :: startsAfter next cs else startsAfter next cs

/-- Byte offsets at which the lines of a text start. -/
def lineStarts (cs : List Char) : List Nat := 0 :: startsAfter 0 cs

/-- The text without one carriage return at its end. -/
def dropReturn (cs : List Char) : List Char :=
  if cs.getLast? = some '\r' then cs.dropLast else cs

/-- Number of lines; a last line without a newline counts if it is not empty. -/
def lineCount (bytes : Bytes) : Nat :=
  bytes.count 0x0a + if bytes.getLast?.all (· == 0x0a) then 0 else 1

/-- The pieces of a text between its newlines. -/
def pieces : List Char → List (List Char)
  | [] => [[]]
  | c :: cs =>
    if c = '\n' then [] :: pieces cs
    else
      match pieces cs with
      | [] => [[c]]
      | p :: ps => (c :: p) :: ps

end Coupling.Text
